import KnowledgePlatform.Outbox.Leases

/-! Lease safety of the outbox: terminal marks, pinned limits, complete leases, and fences that
only the holder of the latest live claim passes. -/

namespace KnowledgePlatform.Outbox

open List

/-- At most one terminal mark, attempts within the limit, a lease whole or absent. -/
structure Row.Sound (r : Row) : Prop where
  oneTerminal : r.deliveredAt = none ∨ r.deadLetteredAt = none
  withinLimit : ∀ limit, r.attemptLimit = some limit → r.attemptCount ≤ limit
  leaseComplete : r.leaseToken = none ↔ r.leaseExpiresAt = none

/-- `later` is the same event, and every terminal mark and the pinned limit of `r` stand. -/
structure Row.Persists (r later : Row) : Prop where
  envelope : later.envelope = r.envelope
  delivered : ∀ t, r.deliveredAt = some t → later.deliveredAt = some t
  deadLettered : ∀ t, r.deadLetteredAt = some t → later.deadLetteredAt = some t
  pinned : ∀ limit, r.attemptLimit = some limit → later.attemptLimit = some limit

theorem Row.Persists.refl (r : Row) : r.Persists r :=
  ⟨rfl, fun _ h => h, fun _ h => h, fun _ h => h⟩

theorem Row.Persists.trans {a b c : Row} (first : a.Persists b) (second : b.Persists c) :
    a.Persists c where
  envelope := second.envelope.trans first.envelope
  delivered t h := second.delivered t (first.delivered t h)
  deadLettered t h := second.deadLettered t (first.deadLettered t h)
  pinned limit h := second.pinned limit (first.pinned limit h)

namespace Effect

variable {policy : Option DeliveryPolicy} {c : Call} {t : Time} {reply : Reply} {r r' : Row}

theorem sound (h : Effect policy c t reply r r') (hr : r.Sound) : r'.Sound := by
  cases h with
  | kept => exact hr
  | claimed _ claimable =>
    obtain ⟨isOpen, -, -, below⟩ := claimable
    refine ⟨hr.oneTerminal, ?_, by simp [Row.claimed]⟩
    intro limit pinned
    cases pinned
    simp only [Row.claimed]
    omega
  | renewed _ held =>
    refine ⟨hr.oneTerminal, hr.withinLimit, ?_⟩
    simp [Row.renewed, held.1]
  | delivered _ held => exact ⟨.inr held.2.1.2, hr.withinLimit, iff_of_true rfl rfl⟩
  | failed _ held => exact ⟨.inl held.2.1.1, hr.withinLimit, iff_of_true rfl rfl⟩
  | reaped reapable => exact ⟨.inl reapable.1.1, hr.withinLimit, iff_of_true rfl rfl⟩

theorem persists (h : Effect policy c t reply r r') : r.Persists r' := by
  have terminal {x : Time} {p : Prop} (mark : Option Time) (none : mark = none)
      (set : mark = some x) : p := by
    rw [none] at set
    cases set
  cases h with
  | kept => exact .refl r
  | claimed => exact ⟨rfl, fun _ h => h, fun _ h => h, fun _ h => by simp [Row.claimed, h]⟩
  | renewed => exact ⟨rfl, fun _ h => h, fun _ h => h, fun _ h => h⟩
  | delivered _ held =>
    exact ⟨rfl, fun _ h => terminal _ held.2.1.1 h, fun _ h => h, fun _ h => h⟩
  | failed _ held =>
    exact ⟨rfl, fun _ h => h, fun _ h => terminal _ held.2.1.2 h, fun _ h => h⟩
  | reaped reapable =>
    exact ⟨rfl, fun _ h => h, fun _ h => terminal _ reapable.1.2 h, fun _ h => h⟩

end Effect

variable {after : Database}

/-- A fence reports `Updated` only on a row that holds the presented token. -/
theorem Database.fenced_updated {db : Database} {eventId : Uuid} {fence : Row → Prop}
    [DecidablePred fence] {change : Row → Row}
    (h : db.fenced eventId fence change = (.updated, after)) :
    ∃ r ∈ db.rows, r.eventId = eventId ∧ fence r := by
  simp only [fenced, Prod.mk.injEq] at h
  split at h
  next any =>
    obtain ⟨r, hr, passes⟩ := any_eq_true.mp any
    simp only [decide_eq_true_eq] at passes
    exact ⟨r, hr, passes.1, passes.2⟩
  · cases h.1

variable {c : Call} {t : Time} {id token : Uuid}

theorem Call.updated_held {db : Database} (presents : c.Presents id token)
    (h : c.run t db = .ok (.fence .updated, after)) :
    ∃ r ∈ db.rows, r.eventId = id ∧ r.Held token t := by
  cases c with
  | claim | reapExhausted => exact presents.elim
  | settleSuccess =>
    obtain ⟨rfl, rfl⟩ := presents
    simp only [run, Except.ok.injEq, Prod.mk.injEq, Reply.fence.injEq] at h
    exact Database.fenced_updated (Prod.ext h.1 rfl)
  | renew | settleFailure =>
    obtain ⟨rfl, rfl⟩ := presents
    obtain ⟨⟨result, _⟩, run, h⟩ := except_bind_ok h
    cases h
    obtain ⟨_, -, run⟩ := except_bind_ok run
    obtain ⟨_, -, run⟩ := except_bind_ok run
    obtain ⟨r, hr, id, held⟩ := Database.fenced_updated (Except.ok.inj run)
    -- A failure asks for more than the lease.
    first | exact ⟨r, hr, id, held⟩ | exact ⟨r, hr, id, held.1⟩

theorem Call.settles_presents {reply : Reply} (h : c.settles reply id token = true) :
    reply = .fence .updated ∧ c.Presents id token := by
  unfold settles at h
  split at h
  · exact ⟨rfl, by simpa [Presents] using h⟩
  · exact ⟨rfl, by simpa [Presents] using h⟩
  · cases h

/-! ## The invariant of a run -/

/-- The leases of the rows are those of the trace, and no lease was settled twice. -/
structure Invariant (trace : List Label) (s : State) : Prop where
  keyed : s.db.Keyed
  sound : ∀ r ∈ s.db.rows, r.Sound
  leased : ∀ r ∈ s.db.rows, ∀ token, r.leaseToken = some token →
    ∃ e, r.leaseExpiresAt = some e ∧ leaseOf r.eventId trace = some ⟨token, e⟩
  issued : ∀ r ∈ s.db.rows, ∀ token, r.leaseToken = some token → token ∈ s.issued
  once : ∀ id token, trace.countP (Label.settles id token) ≤ 1
  unissued : ∀ id token, token ∉ s.issued → trace.countP (Label.settles id token) = 0
  unsettled : ∀ r ∈ s.db.rows, ∀ token, r.leaseToken = some token →
    trace.countP (Label.settles r.eventId token) = 0

variable {trace : List Label} {s s' : State} {l : Label}

/-- A step that changes no row and settles nothing keeps the invariant. -/
theorem Invariant.idle (h : Invariant trace s) (rows : s'.db.rows = s.db.rows)
    (issued : s'.issued = s.issued) (lease : ∀ id, leaseOf id (l :: trace) = leaseOf id trace)
    (settles : ∀ id token, l.settles id token = false) : Invariant (l :: trace) s' := by
  have count (id token : Uuid) :
      (l :: trace).countP (Label.settles id token) = trace.countP (Label.settles id token) := by
    simp [settles]
  refine ⟨?_, ?_, ?_, ?_, ?_, ?_, ?_⟩
  · simpa only [Database.Keyed, rows] using h.keyed
  · rw [rows]
    exact h.sound
  · intro r hr token held
    rw [lease]
    exact h.leased r (rows ▸ hr) token held
  · rw [rows, issued]
    exact h.issued
  · intro id token
    rw [count]
    exact h.once id token
  · intro id token fresh
    rw [count]
    exact h.unissued id token (issued ▸ fresh)
  · intro r hr token held
    rw [count]
    exact h.unsettled r (rows ▸ hr) token held

/-- A row's lease after a committed call is the one the history gives it. -/
theorem Effect.leased {policy c t reply r r' trace answer} (h : Effect policy c t reply r r')
    (before : ∀ token, r.leaseToken = some token → ∃ e, r.leaseExpiresAt = some e ∧
      leaseOf r.eventId trace = some ⟨token, e⟩)
    (held : r'.leaseToken = some token) :
    ∃ e, r'.leaseExpiresAt = some e ∧
      leaseOf r'.eventId (.call c t (some reply) answer :: trace) = some ⟨token, e⟩ := by
  rw [h.eventId]
  simp only [leaseOf]
  cases h with
  | kept same =>
    rw [same]
    exact before token held
  | claimed _ _ _ _ lease _ =>
    cases held
    exact ⟨_, rfl, lease _⟩
  | renewed _ _ lease _ =>
    obtain ⟨e, -, old⟩ := before token held
    exact ⟨_, rfl, by rw [lease, old]; rfl⟩
  | delivered | failed | reaped => cases held

theorem Effect.issued {policy c t reply r r' known} (h : Effect policy c t reply r r')
    (before : ∀ token, r.leaseToken = some token → token ∈ known)
    (held : r'.leaseToken = some token) : token ∈ reply.tokens ++ known := by
  cases h with
  | kept | renewed => exact mem_append_right _ (before token held)
  | claimed _ _ issued =>
    cases held
    exact mem_append_left _ issued
  | delivered | failed | reaped => cases held

/-- After a committed call, no settlement of a lease that a row still holds has happened. -/
theorem Effect.unsettled {policy c t reply r r' trace known answer}
    (h : Effect policy c t reply r r') (fresh : c.Fresh known)
    (unissued : ∀ id token, token ∉ known → trace.countP (Label.settles id token) = 0)
    (before : ∀ token, r.leaseToken = some token → trace.countP (Label.settles r.eventId token) = 0)
    (held : r'.leaseToken = some token) :
    (Label.call c t (some reply) answer :: trace).countP (Label.settles r'.eventId token) = 0 := by
  rw [h.eventId, countP_cons]
  simp only [Label.settles]
  cases h with
  | kept _ settles | renewed _ _ _ settles => simp [settles, before token held]
  | claimed _ _ _ new _ settles =>
    cases held
    simp [settles, unissued r.eventId _ (new known fresh)]
  | delivered | failed | reaped => cases held

theorem Invariant.committed (h : Invariant trace s) {reply : Reply}
    {answer : Except DeliveryError Reply} (fresh : c.Fresh s.issued)
    (run : c.run t s.db = .ok (reply, after)) :
    Invariant (.call c t (some reply) answer :: trace) ⟨after, t, reply.tokens ++ s.issued⟩ := by
  obtain ⟨-, f, rows, effect⟩ := Call.run_effects h.keyed run
  have before {r' : Row} (hr : r' ∈ after.rows) :
      ∃ r ∈ s.db.rows, Effect s.db.policy c t reply r r' := by
    rw [rows] at hr
    obtain ⟨r, mem, rfl⟩ := mem_map.mp hr
    exact ⟨r, mem, effect r mem⟩
  have settled {id token : Uuid} (now : c.settles reply id token = true) :
      token ∈ s.issued ∧ trace.countP (Label.settles id token) = 0 := by
    obtain ⟨rfl, presents⟩ := Call.settles_presents now
    obtain ⟨r, hr, rfl, held, -⟩ := Call.updated_held presents run
    exact ⟨h.issued r hr token held, h.unsettled r hr token held⟩
  refine ⟨?_, ?_, ?_, ?_, ?_, ?_, ?_⟩
  · have ids : after.rows.map Row.eventId = s.db.rows.map Row.eventId := by
      rw [rows, map_map]
      exact map_congr_left fun r hr => (effect r hr).eventId
    simpa only [Database.Keyed, ids] using h.keyed
  · intro r' hr'
    obtain ⟨r, hr, change⟩ := before hr'
    exact change.sound (h.sound r hr)
  · intro r' hr' token held
    obtain ⟨r, hr, change⟩ := before hr'
    exact change.leased (h.leased r hr) held
  · intro r' hr' token held
    obtain ⟨r, hr, change⟩ := before hr'
    exact change.issued (h.issued r hr) held
  · intro id token
    rw [countP_cons]
    split
    next now =>
      rw [(settled now).2]
    · exact h.once id token
  · intro id token unissued
    have old : token ∉ s.issued := fun known => unissued (mem_append_right _ known)
    rw [countP_cons, h.unissued id token old]
    split
    next now =>
      exact absurd (settled now).1 old
    · rfl
  · intro r' hr' token held
    obtain ⟨r, hr, change⟩ := before hr'
    exact change.unsettled fresh h.unissued (h.unsettled r hr) held

theorem Invariant.insert (h : Invariant trace s) {envelope : DeliveryEnvelope}
    (new : ∀ r ∈ s.db.rows, r.eventId ≠ envelope.eventId) :
    Invariant (.insert envelope :: trace)
      { s with db := { s.db with rows := s.db.rows ++ [Row.inserted envelope] } } := by
  have old {r : Row} {token : Uuid} (hr : r ∈ s.db.rows ++ [Row.inserted envelope])
      (held : r.leaseToken = some token) : r ∈ s.db.rows := by
    obtain hr | hr := mem_append.mp hr
    · exact hr
    · rw [mem_singleton.mp hr] at held
      cases held
  have idle : Invariant (.insert envelope :: trace) s :=
    h.idle rfl rfl (fun _ => rfl) (fun _ _ => rfl)
  refine ⟨?_, ?_, ?_, ?_, idle.once, idle.unissued, ?_⟩
  · exact nodup_map_concat h.keyed new
  · refine forall_mem_append.mpr ⟨h.sound, forall_mem_singleton.mpr ?_⟩
    exact ⟨.inl rfl, nofun, iff_of_true rfl rfl⟩
  · exact fun r hr token held => idle.leased r (old hr held) token held
  · exact fun r hr token held => idle.issued r (old hr held) token held
  · exact fun r hr token held => idle.unsettled r (old hr held) token held

theorem step_invariant (h : Invariant trace s) (step : Step s l s') :
    Invariant (l :: trace) s' := by
  cases step with
  | answered _ fresh run | unreported _ fresh run => exact h.committed fresh run
  | refused | rolledBack | rollout => exact h.idle rfl rfl (fun _ => rfl) (fun _ _ => rfl)
  | insert new => exact h.insert new

/-- A row no worker has claimed yet, whatever attempts an older delivery path counted on it. -/
structure Row.Unclaimed (r : Row) : Prop where
  isOpen : r.Open
  unpinned : r.attemptLimit = none
  noToken : r.leaseToken = none
  noExpiry : r.leaseExpiresAt = none

/-- Distinct events, none of them ever claimed. -/
structure State.Start (s : State) : Prop where
  keyed : s.db.Keyed
  unclaimed : ∀ r ∈ s.db.rows, r.Unclaimed

theorem State.Start.invariant (h : s.Start) : Invariant [] s := by
  have free {r : Row} {token : Uuid} {p : Prop} (hr : r ∈ s.db.rows)
      (held : r.leaseToken = some token) : p := by
    rw [(h.unclaimed r hr).noToken] at held
    cases held
  refine ⟨h.keyed, ?_, fun r hr _ held => free hr held, fun r hr _ held => free hr held,
    fun _ _ => Nat.zero_le _, fun _ _ _ => rfl, fun r hr _ held => free hr held⟩
  intro r hr
  have unclaimed := h.unclaimed r hr
  refine ⟨.inl unclaimed.isOpen.1, fun limit pinned => ?_,
    iff_of_true unclaimed.noToken unclaimed.noExpiry⟩
  rw [unclaimed.unpinned] at pinned
  cases pinned

variable {start : State}

theorem run_invariant (h : start.Start) (run : Run Step start trace s) :
    Invariant trace s :=
  run.invariant (P := Invariant) h.invariant fun _ _ _ _ inv step => step_invariant inv step

theorem step_persists (keyed : s.db.Keyed) (step : Step s l s') :
    ∀ r ∈ s.db.rows, ∃ later ∈ s'.db.rows, r.Persists later := by
  intro r hr
  have committed {c : Call} {t : Time} {reply : Reply} {after : Database}
      (run : c.run t s.db = .ok (reply, after)) : ∃ later ∈ after.rows, r.Persists later := by
    obtain ⟨-, f, rows, effect⟩ := Call.run_effects keyed run
    exact ⟨f r, rows ▸ mem_map_of_mem hr, (effect r hr).persists⟩
  cases step with
  | answered _ _ run => exact committed run
  | unreported _ _ run => exact committed run
  | refused | rolledBack | rollout => exact ⟨r, hr, .refl r⟩
  | insert => exact ⟨r, mem_append_left _ hr, .refl r⟩

theorem run_persists {earlier later : List Label} (h : Invariant earlier s)
    (run : Run Step s later s') :
    ∀ r ∈ s.db.rows, ∃ next ∈ s'.db.rows, r.Persists next := by
  have both : (∃ trace, Invariant trace s') ∧
      ∀ r ∈ s.db.rows, ∃ next ∈ s'.db.rows, r.Persists next := by
    induction run with
    | start => exact ⟨⟨_, h⟩, fun r hr => ⟨r, hr, .refl r⟩⟩
    | next _ step ih =>
      obtain ⟨⟨trace, inv⟩, persists⟩ := ih
      refine ⟨⟨_, step_invariant inv step⟩, fun r hr => ?_⟩
      obtain ⟨middle, hm, first⟩ := persists r hr
      obtain ⟨last, hl, second⟩ := step_persists inv.keyed step middle hm
      exact ⟨last, hl, first.trans second⟩
  exact both.2

/-- **Lease safety.** In every state of every run: no row is both delivered and dead-lettered, a
pinned limit bounds the attempts, and a lease has a token exactly when it has an expiry; from there
on terminal marks and pinned limits stay; every renewal or settlement that took effect presented
the token of the latest claim under a live, unsettled lease; and no claim was settled twice. -/
theorem lease_safety (h : start.Start) (run : Run Step start trace s) :
    (∀ r ∈ s.db.rows, ¬ (r.deliveredAt ≠ none ∧ r.deadLetteredAt ≠ none) ∧
      (∀ limit, r.attemptLimit = some limit → r.attemptCount ≤ limit) ∧
      (r.leaseToken = none ↔ r.leaseExpiresAt = none)) ∧
    (∀ later s', Run Step s later s' → ∀ r ∈ s.db.rows, ∃ r' ∈ s'.db.rows,
      r'.eventId = r.eventId ∧
      (∀ t, r.deliveredAt = some t → r'.deliveredAt = some t ∧ r'.deadLetteredAt = none) ∧
      (∀ t, r.deadLetteredAt = some t → r'.deadLetteredAt = some t ∧ r'.deliveredAt = none) ∧
      (∀ limit, r.attemptLimit = some limit → r'.attemptLimit = some limit)) ∧
    (∀ newer older c t committed answer id token,
      trace = newer ++ .call c t committed answer :: older →
      (committed = some (.fence .updated) ∨ answer = .ok (.fence .updated)) →
      c.Presents id token →
      ∃ lease, leaseOf id older = some lease ∧ lease.token = token ∧ t < lease.expiresAt) ∧
    (∀ id token, trace.countP (Label.settles id token) ≤ 1) := by
  have inv := run_invariant h run
  refine ⟨?_, ?_, ?_, inv.once⟩
  · intro r hr
    have sound := inv.sound r hr
    refine ⟨?_, sound.withinLimit, sound.leaseComplete⟩
    rintro ⟨delivered, dead⟩
    exact sound.oneTerminal.elim delivered dead
  · intro later s' rest r hr
    obtain ⟨r', hr', persists⟩ := run_persists inv rest r hr
    have sound := (run_invariant h (run.append rest)).sound r' hr'
    refine ⟨r', hr', congrArg DeliveryEnvelope.eventId persists.envelope, ?_, ?_, persists.pinned⟩
    · intro t delivered
      have delivered := persists.delivered t delivered
      exact ⟨delivered, sound.oneTerminal.resolve_left (by simp [delivered])⟩
    · intro t dead
      have dead := persists.deadLettered t dead
      exact ⟨dead, sound.oneTerminal.resolve_right (by simp [dead])⟩
  · rintro newer older c t committed answer id token rfl updated presents
    obtain ⟨before, after, first, step, -⟩ := run.split
    have inv := run_invariant h first
    have done {db : Database} (run : c.run t before.db = .ok (.fence .updated, db)) :
        ∃ lease, leaseOf id older = some lease ∧ lease.token = token ∧ t < lease.expiresAt := by
      obtain ⟨r, hr, rfl, held, -, e, expires, live⟩ := Call.updated_held presents run
      obtain ⟨e', expires', lease⟩ := inv.leased r hr token held
      obtain rfl : e = e' := Option.some.inj (expires.symm.trans expires')
      exact ⟨_, lease, rfl, live⟩
    cases step with
    | answered _ _ call | unreported _ _ call =>
      obtain updated | updated := updated <;> cases updated <;> exact done call
    | refused | rolledBack => obtain updated | updated := updated <;> cases updated

/-! One event claimed, renewed and settled under the default policy. -/

def sampleId (n : UInt8) : Uuid := .filled n

def sampleEvent : DeliveryEnvelope :=
  ⟨sampleId 1, "document.created", "Document", sampleId 2, .null, 100⟩

def sampleStart : State := ⟨⟨some .default, [Row.inserted sampleEvent]⟩, 100, []⟩

def sampleClaimed : ClaimedEvent := ⟨sampleEvent, 1, 8, sampleId 4, sampleId 3, 1000200⟩

def sampleTrace : List Label :=
  [.call (.settleSuccess (sampleId 1) (sampleId 4)) 400 (some (.fence .updated))
      (.ok (.fence .updated)),
    .call (.renew .default (sampleId 1) (sampleId 4) (Duration.fromMillis 2000)) 300
      (some (.fence .updated)) (.error .storeUnknown),
    .call (.claim .default (sampleId 3) 1 (Duration.fromMillis 1000) [] fun _ => sampleId 4) 200
      (some (.claimed [sampleClaimed])) (.ok (.claimed [sampleClaimed]))]

theorem sampleStart_start : sampleStart.Start := by
  refine ⟨by simp [Database.Keyed, sampleStart], ?_⟩
  intro r hr
  obtain rfl := mem_singleton.mp hr
  exact ⟨⟨rfl, rfl⟩, rfl, rfl, rfl⟩

theorem sample_run : ∃ s, Run Step sampleStart sampleTrace s := by
  refine ⟨_, .next (.next (.next .start (.answered ?_ ?_ rfl)) (.unreported ?_ trivial rfl))
    (.answered ?_ trivial rfl)⟩
  · decide
  · intro _
    exact not_mem_nil
  · decide
  · decide

theorem lease_safety_sample : ∃ s, Run Step sampleStart sampleTrace s ∧
    (∀ r ∈ s.db.rows, ¬ (r.deliveredAt ≠ none ∧ r.deadLetteredAt ≠ none)) ∧
    ∀ id token, sampleTrace.countP (Label.settles id token) ≤ 1 := by
  obtain ⟨s, run⟩ := sample_run
  have safe := lease_safety sampleStart_start run
  exact ⟨s, run, fun r hr => (safe.1 r hr).1, safe.2.2.2⟩

/-! ## Idle rows -/

/-- While no claim pinned a limit, the attempts are below the policy's. -/
def Row.Counted (p : DeliveryPolicy) (r : Row) : Prop :=
  r.attemptLimit = none → r.attemptCount < p.maxAttempts

variable {p : DeliveryPolicy} {t : Time} {r : Row}

theorem Effect.counted {policy : Option DeliveryPolicy} {reply : Reply} {r' : Row}
    (h : Effect policy c t reply r r') (hr : r.Counted p) :
    r'.Counted p := by
  cases h with
  | claimed =>
    intro unpinned
    cases unpinned
  | kept | renewed | delivered | failed | reaped => exact hr

/-- A table that only `INSERT`s and the delivery operations have written, under policy `p`. -/
structure State.Counted (p : DeliveryPolicy) (s : State) : Prop where
  policy : s.db.policy = some p
  rows : ∀ r ∈ s.db.rows, r.Counted p

theorem step_counted (valid : p.Valid) (keyed : s.db.Keyed) (h : s.Counted p)
    (unchanged : ∀ q, l ≠ .rollout q) (step : Step s l s') : s'.Counted p := by
  have committed {c : Call} {t clock : Time} {reply : Reply} {after : Database}
      {issued : List Uuid} (run : c.run t s.db = .ok (reply, after)) :
      State.Counted p ⟨after, clock, issued⟩ := by
    obtain ⟨policy, f, rows, effect⟩ := Call.run_effects keyed run
    refine ⟨policy.trans h.policy, ?_⟩
    intro r' hr'
    simp only [rows] at hr'
    obtain ⟨r, hr, rfl⟩ := mem_map.mp hr'
    exact (effect r hr).counted (h.rows r hr)
  cases step with
  | answered _ _ run => exact committed run
  | unreported _ _ run => exact committed run
  | refused | rolledBack => exact ⟨h.policy, h.rows⟩
  | insert =>
    refine ⟨h.policy, forall_mem_append.mpr ⟨h.rows, forall_mem_singleton.mpr ?_⟩⟩
    intro _
    have := valid.2.1.1
    simp only [Row.inserted]
    omega
  | rollout => exact absurd rfl (unchanged _)

theorem run_counted (valid : p.Valid) (h0 : start.Start) (h : start.Counted p)
    (run : Run Step start trace s) (unchanged : ∀ q, .rollout q ∉ trace) :
    s.Counted p := by
  induction run with
  | start => exact h
  | next before step ih =>
    have rest := ih fun q hq => unchanged q (.tail _ hq)
    refine step_counted valid (run_invariant h0 before).keyed rest ?_ step
    rintro q rfl
    exact unchanged q mem_cons_self

theorem Row.reapable_iff (sound : r.Sound) (isOpen : r.Open)
    (idle : ∀ e, r.leaseExpiresAt = some e → e ≤ t) :
    r.Reapable t ↔ ∃ limit, r.attemptLimit = some limit ∧ limit ≤ r.attemptCount := by
  refine ⟨fun h => h.2.1, fun exhausted => ⟨isOpen, exhausted, ?_⟩⟩
  cases expires : r.leaseExpiresAt with
  | none => exact .inl (sound.leaseComplete.mpr expires)
  | some e => exact .inr ⟨e, rfl, idle e expires⟩

/-- **No row is stranded.** From a table of inserted rows and under one unchanged policy, an open
row whose lease is absent or expired and whose time has come satisfies the WHERE clause of exactly
one of `claim` and `reap_exhausted`. -/
theorem claim_or_reap (policy : start.db.policy = some p) (valid : p.Valid) (keyed : start.db.Keyed)
    (inserted : ∀ r ∈ start.db.rows, r = Row.inserted r.envelope) (run : Run Step start trace s)
    (unchanged : ∀ q, .rollout q ∉ trace) (hr : r ∈ s.db.rows) (isOpen : r.Open)
    (idle : r.leaseToken = none ∨ ∀ e, r.leaseExpiresAt = some e → e ≤ t)
    (available : r.availableAt ≤ t) :
    s.db.policy = some p ∧
      ((r.Claimable p.maxAttempts t ∧ ¬ r.Reapable t) ∨
        (¬ r.Claimable p.maxAttempts t ∧ r.Reapable t)) := by
  have h0 : start.Start := by
    refine ⟨keyed, fun r hr => ?_⟩
    rw [inserted r hr]
    exact ⟨⟨rfl, rfl⟩, rfl, rfl, rfl⟩
  have counted : start.Counted p := by
    refine ⟨policy, fun r hr _ => ?_⟩
    rw [inserted r hr]
    exact valid.2.1.1
  have here := run_counted valid h0 counted run unchanged
  have sound := (run_invariant h0 run).sound r hr
  have expired : ∀ e, r.leaseExpiresAt = some e → e ≤ t := by
    intro e expires
    obtain absent | expired := idle
    · rw [sound.leaseComplete.mp absent] at expires
      cases expires
    · exact expired e expires
  have claimable : r.Claimable p.maxAttempts t ↔
      r.attemptCount < r.attemptLimit.getD p.maxAttempts :=
    ⟨fun h => h.2.2.2, fun below => ⟨isOpen, available, expired, below⟩⟩
  refine ⟨here.policy, ?_⟩
  rw [claimable, Row.reapable_iff sound isOpen expired]
  cases pinned : r.attemptLimit with
  | none =>
    have below := here.rows r hr pinned
    exact .inl ⟨below, by simp⟩
  | some limit =>
    by_cases below : r.attemptCount < limit
    · exact .inl ⟨below, by simpa using below⟩
    · exact .inr ⟨below, limit, rfl, Int.not_lt.mp below⟩

/-! Two events under a policy of one attempt; the first is claimed, and its lease runs out. -/

def oncePolicy : DeliveryPolicy := { DeliveryPolicy.default with maxAttempts := 1 }

def onceLater : DeliveryEnvelope := { sampleEvent with eventId := sampleId 5, occurredAt := 150 }

def onceStart : State :=
  ⟨⟨some oncePolicy, [Row.inserted sampleEvent, Row.inserted onceLater]⟩, 150, []⟩

def onceReply : Reply := .claimed [{ sampleClaimed with attemptLimit := 1 }]

def onceTrace : List Label :=
  [.call (.claim oncePolicy (sampleId 3) 1 (Duration.fromMillis 1000) [] fun _ => sampleId 4) 200
    (some onceReply) (.ok onceReply)]

def onceEnd : State :=
  ⟨⟨some oncePolicy, [(Row.inserted sampleEvent).claimed 1 (sampleId 3) (sampleId 4) 1000 200,
    Row.inserted onceLater]⟩, 200, [sampleId 4]⟩

theorem once_run : Run Step onceStart onceTrace onceEnd := by
  refine .next .start (.answered (by decide) ?_ rfl)
  exact fun _ => not_mem_nil

/-- The event whose lease ran out is left to the reaper, and the other one to a claim. -/
theorem claim_or_reap_sample : Run Step onceStart onceTrace onceEnd ∧
    (∃ r ∈ onceEnd.db.rows, r.leaseExpiresAt = some 1000200 ∧ r.Reapable 1000200) ∧
    (∃ r ∈ onceEnd.db.rows, r.Claimable 1 1000200) ∧
    ∀ r ∈ onceEnd.db.rows, (r.Claimable 1 1000200 ∧ ¬ r.Reapable 1000200) ∨
      (¬ r.Claimable 1 1000200 ∧ r.Reapable 1000200) := by
  refine ⟨once_run, by decide, by decide, fun r hr => ?_⟩
  have inserted : ∀ r ∈ onceStart.db.rows, r = Row.inserted r.envelope := by decide
  have keyed : (onceStart.db.rows.map Row.eventId).Nodup := by decide
  have rest : r.Open ∧ (r.leaseToken = none ∨ ∀ e, r.leaseExpiresAt = some e → e ≤ 1000200) ∧
      r.availableAt ≤ 1000200 := by
    obtain rfl | hr := mem_cons.mp hr
    · exact ⟨by decide, .inr fun _ expires => (Option.some.inj expires).ge, by decide⟩
    · rw [mem_singleton.mp hr]
      exact ⟨by decide, .inl rfl, by decide⟩
  exact (claim_or_reap rfl (by decide) keyed inserted once_run (by simp [onceTrace]) hr rest.1
    rest.2.1 rest.2.2).2

/-! ## Accounting -/

/-- A committed call that hands `id` out: it gives a lease where there was none. -/
def Label.claims (id : Uuid) : Label → Bool
  | .call c t (some reply) _ => (c.lease id t reply none).isSome
  | _ => false

theorem Effect.charged {policy c t reply r r'} (h : Effect policy c t reply r r') :
    r'.attemptCount = r.attemptCount +
      if (c.lease r.eventId t reply none).isSome = true then 1 else 0 := by
  cases h with
  | kept lease | renewed _ _ lease | reaped _ lease =>
    rw [lease none]
    exact (Int.add_zero _).symm
  | claimed _ _ _ _ lease =>
    rw [lease none]
    rfl
  | delivered _ _ settles | failed _ _ settles =>
    obtain ⟨rfl, -⟩ := Call.settles_presents ((settles _).trans (decide_eq_true rfl))
    have none : c.lease r.eventId t (.fence .updated) none = none := by
      cases c <;> simp [Call.lease]
    rw [none]
    exact (Int.add_zero _).symm

theorem step_charged (keyed : s.db.Keyed) (step : Step s l s') (hr : r ∈ s.db.rows) :
    ∃ r' ∈ s'.db.rows, r'.envelope = r.envelope ∧
      r'.attemptCount = r.attemptCount + if l.claims r.eventId = true then 1 else 0 := by
  cases step with
  | answered _ _ run | unreported _ _ run =>
    obtain ⟨-, f, rows, effect⟩ := Call.run_effects keyed run
    exact ⟨f r, rows ▸ mem_map_of_mem hr, (effect r hr).persists.envelope, (effect r hr).charged⟩
  | refused | rolledBack | rollout => exact ⟨r, hr, rfl, (Int.add_zero _).symm⟩
  | insert => exact ⟨r, mem_append_left _ hr, rfl, (Int.add_zero _).symm⟩

/-- **Accounting.** From any state reached on, a row is charged exactly one attempt for each claim
that hands it out, up to the limit pinned to it, and keeps its event. -/
theorem claims_charged {earlier later : List Label} (h : start.Start)
    (before : Run Step start earlier s) (after : Run Step s later s') (hr : r ∈ s.db.rows) :
    ∃ r' ∈ s'.db.rows, r'.envelope = r.envelope ∧
      r'.attemptCount = r.attemptCount + later.countP (Label.claims r.eventId) ∧
      ∀ limit, r'.attemptLimit = some limit → r'.attemptCount ≤ limit := by
  have charged : ∃ r' ∈ s'.db.rows, r'.envelope = r.envelope ∧
      r'.attemptCount = r.attemptCount + later.countP (Label.claims r.eventId) := by
    induction after with
    | start => exact ⟨r, hr, rfl, (Int.add_zero _).symm⟩
    | next run step ih =>
      obtain ⟨m, hm, same, count⟩ := ih
      obtain ⟨r', hr', kept, one⟩ :=
        step_charged (run_invariant h (before.append run)).keyed step hm
      refine ⟨r', hr', kept.trans same, ?_⟩
      have id : m.eventId = r.eventId := congrArg DeliveryEnvelope.eventId same
      rw [one, count, id, countP_cons]
      split <;> push_cast <;> ring
  obtain ⟨r', hr', same, count⟩ := charged
  have sound := (run_invariant h (before.append after)).sound r' hr'
  exact ⟨r', hr', same, count, sound.withinLimit⟩

/-- The claim is charged, though its renewal went unreported. -/
theorem claims_charged_sample : ∃ s, Run Step sampleStart sampleTrace s ∧
    ∃ r ∈ s.db.rows, r.attemptCount = 1 := by
  obtain ⟨s, run⟩ := sample_run
  obtain ⟨r, hr, -, count, -⟩ := claims_charged sampleStart_start .start run (mem_singleton_self _)
  exact ⟨s, run, r, hr, count⟩

end KnowledgePlatform.Outbox
