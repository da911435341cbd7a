import KnowledgePlatform.Audit.Settlement

/-! The chain head binds a body export: what the chain hashes, the bodies that were hashed and the
evidence that names expired rows leave no freedom in any row. -/

namespace KnowledgePlatform.Audit

open List
open Json (Text)

variable {env : Env} {a : Checkpoint}

/-! ## What a line's text fixes -/

variable {text : Text} {body : Body}

theorem readBody_some {v : Json} (h : readBody text v = some (some body)) :
    body = bodyOf text v := by
  cases v with
  | obj => exact (Option.some.inj (Option.some.inj h)).symm
  | null | bool | int | frac | str | arr => cases h

/-- The body is what its text reads as. -/
def Line.Readable (env : Env) (line : Line) : Prop :=
  ∀ body ∈ line.body, ∃ v, Json.Spells env.float 7 v body.text ∧ body = bodyOf body.text v

variable {l m : Line}

theorem Line.Readable.body_eq {b c : Body} (hl : l.Readable env) (hm : m.Readable env)
    (hb : l.body = some b) (hc : m.body = some c) (text : b.text = c.text) :
    b = c := by
  obtain ⟨v, spellsB, readB⟩ := hl b hb
  obtain ⟨w, spellsC, readC⟩ := hm c hc
  rw [text] at spellsB readB
  rw [spellsB.unique spellsC] at readB
  exact readB.trans readC.symm

/-- A body belongs to one origin. -/
theorem originMatches_inj {catalog : Catalog} {o p : Origin}
    (ho : originMatches catalog o body = true) (hp : originMatches catalog p body = true) :
    o = p := by
  unfold originMatches at ho hp
  split at ho
  next eventType source typed sourced =>
    rw [typed, sourced] at hp
    split at ho
    next spec known =>
      simp only [known, decide_eq_true_eq] at ho hp
      rw [← ho.1, hp.1]
    next unknown =>
      have distinct : auditStoreSource ≠ auditRelaySource := by decide
      simp only [unknown] at hp
      cases o <;> cases p <;> simp_all
  · cases ho

/-! ## Preimages -/

/-- What the chain hashes for a row. -/
def Line.preimage (line : Line) : Bytes :=
  chainPreimage line.prevChain line.seq line.eventId line.digest

/-- The set a retention row commits to, when all of it lies on the path. -/
def Line.expiredSet (a : Checkpoint) (lines : List Line) (line : Line) : Option Bytes :=
  match line.expiryEvidence with
  | some (.retention _ (some first) _ _) =>
    if ∃ f ∈ first, f ≤ a.seq then none
    else some (expiredSetPreimage ((expiredKeys lines line.seq).map Prod.fst))
  | _ => none

/-- Every preimage hashed while the rows are verified from `a`. -/
def hashedBy (a : Checkpoint) (lines : List Line) : List Bytes :=
  lines.map Line.preimage ++ lines.filterMap (fun line => line.body.map fun b => utf8 b.text) ++
    lines.filterMap (Line.expiredSet a lines)

/-- The preimages hashed by `verify_export` on a text. -/
def hashed (env : Env) (start : Anchor) (text : Text) : List Bytes :=
  hashedBy start.position ((splitLines text).filterMap (parseLine env))

section

variable {lines : List Line} {line : Line}

theorem preimage_mem (h : line ∈ lines) : line.preimage ∈ hashedBy a lines := by
  simp only [hashedBy, mem_append, mem_map]
  exact .inl (.inl ⟨line, h, rfl⟩)

theorem text_mem (h : line ∈ lines) (hb : line.body = some body) :
    utf8 body.text ∈ hashedBy a lines := by
  simp only [hashedBy, mem_append, mem_filterMap]
  refine .inl (.inr ⟨line, h, ?_⟩)
  rw [hb]
  rfl

theorem expiredSet_mem {set : Bytes} (h : line ∈ lines) (hs : line.expiredSet a lines = some set) :
    set ∈ hashedBy a lines := by
  simp only [hashedBy, mem_append, mem_filterMap]
  exact .inr ⟨line, h, hs⟩

end

/-! ## The chain -/

/-- What the chain fixes of two rows. -/
structure Linked (l m : Line) : Prop where
  seq : l.seq = m.seq
  eventId : l.eventId = m.eventId
  digest : l.digest = m.digest
  prevChain : l.prevChain = m.prevChain
  chain : l.chain = m.chain

theorem Linked.symm (h : Linked l m) : Linked m l :=
  ⟨h.seq.symm, h.eventId.symm, h.digest.symm, h.prevChain.symm, h.chain.symm⟩

variable {A B : List Line}

/-- Paths of one length and one head chain are linked row by row: from the head backwards, equal
chain values have equal preimages, and those hold the previous chain value. -/
theorem Path.linked (pathA : Path env a A) (pathB : Path env a B)
    (apart : ∀ l ∈ A, ∀ m ∈ B, env.sha256 l.preimage = env.sha256 m.preimage →
      l.preimage = m.preimage)
    (length : A.length = B.length) (head : (headOf a A).chain = (headOf a B).chain) :
    Forall₂ Linked A B := by
  induction A using reverseRecOn generalizing B with
  | nil =>
    obtain rfl : B = [] := eq_nil_of_length_eq_zero (by simpa using length.symm)
    exact .nil
  | append_singleton A l ih =>
    cases B using reverseRecOn with
    | nil => simp at length
    | append_singleton B m =>
      have nextA : Next env a A l := pathA.next
      have nextB : Next env a B m := pathB.next
      rw [headOf_concat, headOf_concat] at head
      have hashes : env.sha256 l.preimage = env.sha256 m.preimage := by
        calc env.sha256 l.preimage = l.chain := nextA.hash
          _ = m.chain := head
          _ = env.sha256 m.preimage := nextB.hash.symm
      obtain ⟨prev, seq, id, digest⟩ := chainPreimage_inj (checkedAdd_some nextA.seq).2
        (checkedAdd_some nextB.seq).2 (apart l (by simp) m (by simp) hashes)
      have earlier : (headOf a A).chain = (headOf a B).chain := by
        rw [← nextA.link, ← nextB.link, prev]
      have rest := ih pathA.initial pathB.initial
        (fun x hx y hy => apart x (mem_append_left _ hx) y (mem_append_left _ hy))
        (by simpa using length) earlier
      exact rel_append rest (.cons ⟨seq, id, digest, prev, head⟩ .nil)

/-! ## Two exports with one head -/

/-- Two accepted exports from `a`, linked row by row, with every expiry verified and no two
preimages that collide. -/
structure Twins (env : Env) (a : Checkpoint) (A B : List Line) : Prop where
  left : Accepted env a A
  right : Accepted env a B
  readLeft : ∀ l ∈ A, l.Readable env
  readRight : ∀ l ∈ B, l.Readable env
  verifiedLeft : ∀ row ∈ expiriesOf a.seq A, row.verified = true
  verifiedRight : ∀ row ∈ expiriesOf a.seq B, row.verified = true
  apart : ∀ p ∈ hashedBy a A, ∀ q ∈ hashedBy a B, env.sha256 p = env.sha256 q → p = q
  linked : Forall₂ Linked A B

namespace Twins

variable {A B : List Line} {l m : Line}

section

variable (h : Twins env a A B)
include h

theorem symm : Twins env a B A where
  left := h.right
  right := h.left
  readLeft := h.readRight
  readRight := h.readLeft
  verifiedLeft := h.verifiedRight
  verifiedRight := h.verifiedLeft
  apart := fun p hp q hq same => (h.apart q hq p hp same.symm).symm
  linked := h.linked.flip.imp fun _ _ => Linked.symm

section

variable (hl : l ∈ A)
include hl

theorem pair (hm : m ∈ B) (same : l.seq = m.seq) :
    Linked l m := by
  obtain ⟨twin, htwin, pair⟩ := KnowledgePlatform.exists_right h.linked hl
  rwa [eq_of_seq h.right.path.sorted hm htwin (by rw [← same, pair.seq])]

theorem exists_right : ∃ m ∈ B, l.seq = m.seq := by
  obtain ⟨m, hm, pair⟩ := KnowledgePlatform.exists_right h.linked hl
  exact ⟨m, hm, pair.seq⟩

/-- Stored bodies of one row are one body: their digests are equal, so their texts are. -/
theorem body_eq (hm : m ∈ B) (same : l.seq = m.seq) (storedL : l.expiredBySeq = none)
    (storedM : m.expiredBySeq = none) :
    l.body = m.body ∧ l.origin = m.origin := by
  obtain ⟨_, nextL⟩ := h.left.path.next_of_mem hl
  obtain ⟨_, nextM⟩ := h.right.path.next_of_mem hm
  obtain ⟨b, hb, digestL, -, originL⟩ := nextL.stored storedL
  obtain ⟨c, hc, digestM, -, originM⟩ := nextM.stored storedM
  have hashes : env.sha256 (utf8 b.text) = env.sha256 (utf8 c.text) := by
    calc env.sha256 (utf8 b.text) = l.digest := digestL
      _ = m.digest := (h.pair hl hm same).digest
      _ = env.sha256 (utf8 c.text) := digestM.symm
  have text : b.text = c.text :=
    utf8_inj (h.apart _ (text_mem hl hb) _ (text_mem hm hc) hashes)
  obtain rfl := (h.readLeft l hl).body_eq (h.readRight m hm) hb hc text
  exact ⟨hb.trans hc.symm, originMatches_inj originL originM⟩

/-- Evidence that settles its rows names the same seqs in both exports. -/
theorem seqs_eq (hm : m ∈ B) {evidence : Evidence} (carriedL : l.expiryEvidence = some evidence)
    (carriedM : m.expiryEvidence = some evidence) (confirms : evidence.confirms a.seq = true)
    (n : Int) :
    n ∈ (expiredKeys A l.seq).map Prod.fst → n ∈ (expiredKeys B m.seq).map Prod.fst := by
  have fitsL := h.left.settled.fits l hl evidence carriedL
  have fitsM := h.right.settled.fits m hm evidence carriedM
  have inRange {lines : List Line} (path : Path env a lines) (e : Int) :
      ∀ n ∈ (expiredKeys lines e).map Prod.fst, InInt64 n := by
    intro n hn
    obtain ⟨key, hkey, rfl⟩ := mem_map.mp hn
    obtain ⟨line, hline, -, rfl⟩ := mem_expiredKeys.mp hkey
    exact path.inInt64 hline
  match evidence, carriedL, carriedM with
  | .epochStarted .., carriedL, _ => cases Line.expiryEvidence_removes carriedL
  | .retention (some count) (some first) (some last) (some digest), carriedL, carriedM =>
    have onPath : ¬ ∃ f ∈ first, f ≤ a.seq := by simpa [Evidence.confirms] using confirms
    simp only [Evidence.Matches, onPath, if_false] at fitsL fitsM
    have setL : l.expiredSet a A =
        some (expiredSetPreimage ((expiredKeys A l.seq).map Prod.fst)) := by
      simp only [Line.expiredSet, carriedL, onPath, if_false]
    have setM : m.expiredSet a B =
        some (expiredSetPreimage ((expiredKeys B m.seq).map Prod.fst)) := by
      simp only [Line.expiredSet, carriedM, onPath, if_false]
    have sets := h.apart _ (expiredSet_mem hl setL) _ (expiredSet_mem hm setM)
      (fitsL.2.2.2.2.trans fitsM.2.2.2.2.symm)
    exact (expiredSetPreimage_inj (inRange h.left.path _) (inRange h.right.path _) sets n).mp
  | .purge (some target) id, _, _ =>
    by_cases before : target ≤ a.seq
    · simp only [Evidence.Matches, before, if_true] at fitsL
      simp [fitsL]
    · simp only [Evidence.Matches, before, if_false] at fitsL fitsM
      obtain ⟨x, -, keysL⟩ := fitsL
      obtain ⟨y, -, keysM⟩ := fitsM
      simp [keysL, keysM]

/-- An expired row is expired by the same evidence in the other export, if all later rows agree on
their expiry: the evidence is a later row, stored in both. -/
theorem expired_right (hm : m ∈ B) (same : l.seq = m.seq)
    (later : ∀ x ∈ A, ∀ y ∈ B, x.seq = y.seq → l.seq < x.seq → x.expiredBySeq = y.expiredBySeq)
    {e : Int} (expired : l.expiredBySeq = some e) : m.expiredBySeq = some e := by
  have verified := h.verifiedLeft _ (mem_expiriesOf.mpr ⟨l, hl, e, expired, rfl⟩)
  simp only [confirmedAt, any_eq_true, decide_eq_true_eq] at verified
  obtain ⟨x, hx, rfl, evidence, carried, confirms⟩ := verified
  obtain ⟨y, hy, sameEvidence⟩ := h.exists_right hx
  have after : l.seq < x.seq := by
    obtain ⟨_, next⟩ := h.left.path.next_of_mem hl
    exact (next.expiry _ expired).2.1
  have storedX : x.expiredBySeq = none := by
    cases expiredX : x.expiredBySeq with
    | none => rfl
    | some e' =>
      obtain ⟨_, next⟩ := h.left.path.next_of_mem hx
      have gone := (next.expiry e' expiredX).2.2
      rw [Option.mem_def, Line.expiryEvidence, gone] at carried
      simp at carried
  have storedY : y.expiredBySeq = none := by
    rw [← later x hx y hy sameEvidence after]
    exact storedX
  obtain ⟨bodies, origins⟩ := h.body_eq hx hy sameEvidence storedX storedY
  have carriedY : y.expiryEvidence = some evidence := by
    rw [← Option.mem_def.mp carried, Line.expiryEvidence, Line.expiryEvidence, bodies, origins]
  have named : l.seq ∈ (expiredKeys B y.seq).map Prod.fst := by
    apply h.seqs_eq hx hy carried carriedY confirms
    exact mem_map.mpr ⟨l.key, mem_expiredKeys.mpr ⟨l, hl, expired, rfl⟩, rfl⟩
  obtain ⟨key, hkey, seq⟩ := mem_map.mp named
  obtain ⟨row, hrow, expiredRow, rfl⟩ := mem_expiredKeys.mp hkey
  obtain rfl : row = m := eq_of_seq h.right.path.sorted hrow hm (seq.trans same)
  rw [expiredRow, sameEvidence]

/-- The rows agree on their expiry, from the head backwards. -/
theorem expired_eq (hm : m ∈ B) (same : l.seq = m.seq) :
    l.expiredBySeq = m.expiredBySeq := by
  -- strong induction on the distance to the head
  obtain ⟨n, hn⟩ : ∃ n : Nat, (n : Int) = (headOf a A).seq - l.seq :=
    ⟨_, Int.toNat_of_nonneg (by have := h.left.path.le_head hl; omega)⟩
  induction n using Nat.strong_induction_on generalizing l m with
  | _ n ih =>
    have later : ∀ x ∈ A, ∀ y ∈ B, x.seq = y.seq → l.seq < x.seq →
        x.expiredBySeq = y.expiredBySeq := by
      intro x hx y hy sameX after
      have := h.left.path.le_head hx
      exact ih ((headOf a A).seq - x.seq).toNat (by omega) hx hy sameX (by omega)
    have backwards : ∀ y ∈ B, ∀ x ∈ A, y.seq = x.seq → m.seq < y.seq →
        y.expiredBySeq = x.expiredBySeq := by
      intro y hy x hx sameY after
      exact (later x hx y hy sameY.symm (by omega)).symm
    cases expiredL : l.expiredBySeq with
    | some => exact (h.expired_right hl hm same later expiredL).symm
    | none =>
      cases expiredM : m.expiredBySeq with
      | none => rfl
      | some =>
        rw [h.symm.expired_right hm hl same.symm backwards expiredM] at expiredL
        cases expiredL

/-- Everything but the epoch agrees. -/
theorem row_eq (hm : m ∈ B) (same : l.seq = m.seq) :
    l = { m with epoch := l.epoch } := by
  have linked := h.pair hl hm same
  have expired := h.expired_eq hl hm same
  obtain ⟨_, nextL⟩ := h.left.path.next_of_mem hl
  obtain ⟨_, nextM⟩ := h.right.path.next_of_mem hm
  obtain ⟨body, origin⟩ : l.body = m.body ∧ l.origin = m.origin := by
    cases expiredM : m.expiredBySeq with
    | none => exact h.body_eq hl hm same (expired.trans expiredM) expiredM
    | some e =>
      have goneL := nextL.expiry e (expired.trans expiredM)
      have goneM := nextM.expiry e expiredM
      exact ⟨goneL.2.2.trans goneM.2.2.symm, goneL.1.trans goneM.1.symm⟩
  exact Line.ext linked.seq linked.eventId origin linked.digest linked.prevChain linked.chain rfl
    expired body

end

end

end Twins

theorem Path.eq_of_rows (pathA : Path env a A) (pathB : Path env a B)
    (rows : Forall₂ (fun l m => l = { m with epoch := l.epoch }) A B) : A = B := by
  induction A using reverseRecOn generalizing B with
  | nil => exact (forall₂_nil_left_iff.mp rows).symm
  | append_singleton A l ih =>
    cases B using reverseRecOn with
    | nil => cases append_eq_nil_iff.mp (forall₂_nil_right_iff.mp rows) |>.2
    | append_singleton B m =>
      have length : A.length = B.length := by simpa using rows.length_eq
      have initial := forall₂_take A.length rows
      have last := forall₂_drop A.length rows
      rw [take_left, take_left' length.symm] at initial
      rw [drop_left, drop_left' length.symm] at last
      obtain rfl := ih pathA.initial pathB.initial initial
      have row : l = { m with epoch := l.epoch } := (forall₂_cons.mp last).1
      have epoch : l.epoch = m.epoch := by
        have started : isEpochStarted l = isEpochStarted m := by
          rw [row]
          rfl
        rcases pathA.next.epoch with ⟨stayL, plainL⟩ | ⟨stepL, x, attestedL⟩
        · rcases pathB.next.epoch with ⟨stayM, -⟩ | ⟨-, y, attestedM⟩
          · exact stayL.trans stayM.symm
          · rw [plainL, (attestTransition_some attestedM).2] at started
            cases started
        · rcases pathB.next.epoch with ⟨-, plainM⟩ | ⟨stepM, -⟩
          · rw [plainM, (attestTransition_some attestedL).2] at started
            cases started
          · exact Option.some.inj (stepL.symm.trans stepM)
      rw [epoch] at row
      rw [row]

theorem Twins.eq (h : Twins env a A B) : A = B := by
  apply h.left.path.eq_of_rows h.right.path
  rw [forall₂_iff_zip]
  refine ⟨h.linked.length_eq, ?_⟩
  intro l m zipped
  obtain ⟨hl, hm⟩ := of_mem_zip zipped
  exact h.row_eq hl hm (forall₂_zip h.linked zipped).seq

/-! ## Exports as texts -/

variable {lines : List Line}

theorem Reads.readable (h : Reads env text lines) :
    ∀ line ∈ lines, line.Readable env := by
  intro line hline body hb
  obtain ⟨t, parsed⟩ := h.parsed hline
  obtain ⟨pairs, raw, m, parsed, rawRead, found, read⟩ := parseLine_some parsed
  obtain ⟨-, v, got, readable⟩ := readLine_some read
  rw [hb] at readable
  obtain rfl := readBody_some readable
  obtain ⟨ms, all, rfl, spelled⟩ :=
    Json.documentMembers_of_document (parseBounded_document.mp parsed).2
  obtain rfl : ms = raw := Except.ok.inj (all.symm.trans rawRead)
  obtain rfl : v = m.value := by
    rw [Json.get, Json.lookup_pair, found] at got
    exact (Option.some.inj got).symm
  exact ⟨m.value, spelled m (mem_of_find?_eq_some found), rfl⟩

theorem Reads.hashed_eq (h : Reads env text lines) (start : Anchor) :
    hashed env start text = hashedBy start.position lines := by
  have parsed : (splitLines text).filterMap (parseLine env) = lines := by
    have present := congrArg (filterMap id) h
    simpa [filterMap_map, Function.comp_def] using present
  rw [hashed, parsed]

theorem verified_of_unverified_zero (h : (exportReport a lines).unverifiedExpiryEvidence = 0) :
    ∀ row ∈ expiriesOf a.seq lines, row.verified = true := by
  intro row hrow
  simpa using countP_eq_zero.mp h row hrow

/-- **The chain head binds the export.** Two body exports accepted from one anchor with one head
seq, one head chain and every expiry verified have the same rows, in every field, or exhibit a
collision between two of the preimages hashed while verifying them. -/
theorem chain_head_binds_export (env : Env) (start : Anchor) (s t : Text) (r q : ExportReport)
    (hr : verifyExport env s start = .ok r) (hq : verifyExport env t start = .ok q)
    (seq : r.head.seq = q.head.seq) (chain : r.head.chain = q.head.chain)
    (verifiedR : r.unverifiedExpiryEvidence = 0) (verifiedQ : q.unverifiedExpiryEvidence = 0) :
    (∃ x ∈ hashed env start s, ∃ y ∈ hashed env start t, x ≠ y ∧ env.sha256 x = env.sha256 y) ∨
      (r.rows = q.rows ∧
        ∃ lines, lines.length = r.rows ∧ Reads env s lines ∧ Reads env t lines) := by
  obtain ⟨A, readsA, acceptedA, rfl⟩ := verifyExport_iff.mp hr
  obtain ⟨B, readsB, acceptedB, rfl⟩ := verifyExport_iff.mp hq
  rw [readsA.hashed_eq, readsB.hashed_eq]
  by_cases collision : ∃ x ∈ hashedBy start.position A, ∃ y ∈ hashedBy start.position B,
      x ≠ y ∧ env.sha256 x = env.sha256 y
  · exact .inl collision
  · right
    have apart : ∀ p ∈ hashedBy start.position A, ∀ q ∈ hashedBy start.position B,
        env.sha256 p = env.sha256 q → p = q := by
      intro p hp q hq same
      by_contra differ
      exact collision ⟨p, hp, q, hq, differ, same⟩
    have length : A.length = B.length := by
      have headA := acceptedA.path.headOf_seq
      have headB := acceptedB.path.headOf_seq
      have : (headOf start.position A).seq = (headOf start.position B).seq := seq
      omega
    have linked := acceptedA.path.linked acceptedB.path
      (fun l hl m hm => apart _ (preimage_mem hl) _ (preimage_mem hm)) length chain
    have twins : Twins env start.position A B :=
      ⟨acceptedA, acceptedB, readsA.readable, readsB.readable,
        verified_of_unverified_zero verifiedR, verified_of_unverified_zero verifiedQ, apart, linked⟩
    obtain rfl := twins.eq
    exact ⟨rfl, A, rfl, readsA, readsB⟩

/-- The sample export with and without its last newline. -/
theorem chain_head_binds_sample :
    verifyExport sampleEnv (sampleExport ++ ['\n']) .genesis = .ok sampleReport ∧
      ((∃ x ∈ hashed sampleEnv .genesis sampleExport,
        ∃ y ∈ hashed sampleEnv .genesis (sampleExport ++ ['\n']),
          x ≠ y ∧ sampleEnv.sha256 x = sampleEnv.sha256 y) ∨
        (sampleReport.rows = sampleReport.rows ∧
          ∃ lines, lines.length = sampleReport.rows ∧ Reads sampleEnv sampleExport lines ∧
            Reads sampleEnv (sampleExport ++ ['\n']) lines)) := by
  have lines : splitLines (sampleExport ++ ['\n']) = splitLines sampleExport := by decide +kernel
  have ended : verifyExport sampleEnv (sampleExport ++ ['\n']) .genesis = .ok sampleReport := by
    rw [verifyExport, verify, lines]
    exact verifyExport_sample
  exact ⟨ended, chain_head_binds_export sampleEnv .genesis sampleExport (sampleExport ++ ['\n'])
    sampleReport sampleReport verifyExport_sample ended rfl rfl rfl rfl⟩

end KnowledgePlatform.Audit
