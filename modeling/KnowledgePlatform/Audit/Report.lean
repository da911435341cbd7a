import KnowledgePlatform.Audit.Settlement

/-! What the report of an accepted export says about positions: `chain_at` and `epoch_at` are the
chain and the epoch of the anchor or of the row at the seq. -/

namespace KnowledgePlatform.Audit

open List
open Json (Text)

variable {env : Env} {a : Checkpoint} {lines : List Line}

/-- The trusted positions of a path. -/
def positions (a : Checkpoint) (lines : List Line) : List Checkpoint :=
  a :: lines.map Line.position

theorem headOf_mem (a : Checkpoint) (lines : List Line) : headOf a lines ∈ positions a lines := by
  cases lines using reverseRecOn with
  | nil | append_singleton => simp [positions]

theorem mem_positions {p : Checkpoint} :
    p ∈ positions a lines ↔ p = a ∨ ∃ line ∈ lines, line.position = p := by
  simp [positions]

variable {text : Text} {line : Line}

theorem parseLine_pos (h : parseLine env text = some line) :
    1 ≤ line.seq ∧ 1 ≤ line.epoch := by
  obtain ⟨_, _, _, -, -, -, read⟩ := parseLine_some h
  exact (readLine_some read).1

theorem Reads.pos (h : Reads env text lines) :
    ∀ line ∈ lines, 1 ≤ line.seq ∧ 1 ≤ line.epoch := by
  intro line hline
  obtain ⟨t, parsed⟩ := h.parsed hline
  exact parseLine_pos parsed

/-! ## Chain values -/

theorem Path.getElem_seq (path : Path env a lines) {i : Nat} (h : lines[i]? = some line) :
    line.seq = a.seq + i + 1 := by
  obtain ⟨hi, rfl⟩ := List.getElem?_eq_some_iff.mp h
  have split : lines = lines.take i ++ lines[i] :: lines.drop (i + 1) := by
    rw [getElem_cons_drop, take_append_drop]
  have seq := Path.seq_eq (split ▸ path)
  rwa [length_take_of_le (Nat.le_of_lt hi)] at seq

theorem checkedSub_some {x y z : Int} (h : checkedSub x y = some z) : z = x - y := by
  simp only [checkedSub, Option.ite_none_right_eq_some, Option.some.injEq] at h
  exact h.2.symm

variable {report : ExportReport} {seq : Int}

/-- The index of `chain_at`: rows are numbered from the anchor's seq. -/
theorem chainAt_row (anchor : report.trusted = some a) (nonneg : 0 ≤ a.seq) {i : Nat}
    (here : seq = a.seq + i + 1) (range : InInt64 seq) :
    report.chainAt seq = report.chains[i]? := by
  have sub : checkedSub seq a.seq = some ((i : Int) + 1) := by
    rw [checkedSub, if_pos (by unfold InInt64 at range ⊢; omega)]
    congr 1
    omega
  have sub' : checkedSub ((i : Int) + 1) 1 = some (i : Int) := by
    rw [checkedSub, if_pos (by unfold InInt64 at range ⊢; omega), Int.add_sub_cancel]
  simp only [ExportReport.chainAt, anchor, Option.bind_eq_bind, Option.bind_some, sub, sub']
  rw [if_neg (by omega), if_pos (Int.natCast_nonneg i), Int.toNat_natCast]

theorem Path.chainAt_iff (path : Path env a lines) (pos : ∀ line ∈ lines, 1 ≤ line.seq)
    (anchor : report.trusted = some a) (chains : report.chains = lines.map Line.chain)
    {chain : Digest} :
    report.chainAt seq = some chain ↔
      ∃ p ∈ positions a lines, p.seq = seq ∧ p.chain = chain := by
  constructor
  · intro h
    simp only [ExportReport.chainAt, anchor, chains, Option.bind_eq_bind, Option.bind_some] at h
    split_ifs at h with atAnchor
    · cases h
      exact ⟨a, .head _, atAnchor.symm, rfl⟩
    · simp only [Option.bind_eq_some_iff, Option.ite_none_right_eq_some, getElem?_map,
        Option.map_eq_some_iff] at h
      obtain ⟨d, sub, index, sub', _, line, found, rfl⟩ := h
      have hd := checkedSub_some sub
      have hindex := checkedSub_some sub'
      have lineSeq := path.getElem_seq found
      refine ⟨line.position, mem_positions.mpr (.inr ⟨line, mem_of_getElem? found, rfl⟩), ?_, rfl⟩
      show line.seq = seq
      omega
  · rintro ⟨p, hp, rfl, rfl⟩
    rcases mem_positions.mp hp with rfl | ⟨line, hline, rfl⟩
    · simp [ExportReport.chainAt, anchor]
    · obtain ⟨i, found⟩ := getElem?_of_mem hline
      have anchored : 0 ≤ a.seq := by
        obtain ⟨first, rest, rfl⟩ := exists_cons_of_ne_nil (ne_nil_of_mem hline)
        have := path.getElem_seq getElem?_cons_zero
        have := pos first mem_cons_self
        omega
      refine (chainAt_row anchor anchored (path.getElem_seq found) (path.inInt64 hline)).trans ?_
      rw [chains, getElem?_map, found]
      rfl

/-! ## Epochs -/

/-- The epoch at `seq` by the recorded transitions. -/
def epochOn (a : Checkpoint) (lines : List Line) (seq : Int) : Int :=
  (((transitionsFrom a.epoch lines).reverse.find? fun t => t.seq ≤ seq).map
    EpochTransition.newEpoch).getD a.epoch

variable {epoch : Int}

theorem mem_transitionsFrom {t : EpochTransition} (h : t ∈ transitionsFrom epoch lines) :
    ∃ line ∈ lines, line.seq = t.seq ∧ line.epoch = t.newEpoch ∧
      line.attestation = t.attestation := by
  induction lines generalizing epoch with
  | nil => cases h
  | cons line lines ih =>
    rcases mem_append.mp h with here | later
    · split at here
      · cases here
      · obtain rfl := mem_singleton.mp here
        exact ⟨line, .head _, rfl, rfl, rfl⟩
    · obtain ⟨row, hrow, facts⟩ := ih later
      exact ⟨row, .tail _ hrow, facts⟩

variable {x y : List Line}

/-- Rows after `seq` do not matter. -/
theorem epochOn_append (after : ∀ line ∈ y, seq < line.seq) :
    epochOn a (x ++ y) seq = epochOn a x seq := by
  have none : (transitionsFrom (headOf a x).epoch y).reverse.find? (fun t => t.seq ≤ seq) =
      none := by
    rw [find?_eq_none]
    intro t ht
    obtain ⟨line, hline, lineSeq, -⟩ := mem_transitionsFrom (mem_reverse.mp ht)
    have := after line hline
    simp only [decide_eq_true_eq]
    omega
  unfold epochOn
  rw [transitionsFrom_path, reverse_append, find?_append, none, Option.none_or]

/-- At the end of a path the epoch is the head's. -/
theorem epochOn_head (before : ∀ line ∈ lines, line.seq ≤ seq) :
    epochOn a lines seq = (headOf a lines).epoch := by
  induction lines using reverseRecOn with
  | nil => rfl
  | append_singleton lines line ih =>
    rw [headOf_concat]
    unfold epochOn at ih ⊢
    rw [transitionsFrom_path, transitionsFrom, transitionsFrom, append_nil,
      reverse_append, find?_append]
    by_cases same : line.epoch = (headOf a lines).epoch
    · rw [if_pos same, reverse_nil, find?_nil, Option.none_or,
        ih fun l hl => before l (mem_append_left _ hl)]
      exact same.symm
    · have : line.seq ≤ seq := before line (by simp)
      rw [if_neg same, reverse_singleton, find?_cons]
      simp [this, Line.position]

theorem Path.epochOn_row (path : Path env a (x ++ line :: y)) :
    epochOn a (x ++ line :: y) line.seq = line.epoch := by
  rw [append_cons] at path ⊢
  have sorted := pairwise_append.mp path.sorted
  rw [epochOn_append fun l hl => sorted.2.2 line (by simp) l hl, epochOn_head, headOf_concat]
  · rfl
  · intro l hl
    have := path.initial.le_head hl
    rwa [headOf_concat] at this

theorem Path.epochOn_anchor (path : Path env a lines) : epochOn a lines a.seq = a.epoch := by
  rw [← nil_append lines, epochOn_append fun l hl => path.anchor_lt hl]
  rfl

theorem Path.exists_row (path : Path env a lines) (after : a.seq < seq)
    (within : seq ≤ (headOf a lines).seq) :
    ∃ x line y, lines = x ++ line :: y ∧ line.seq = seq := by
  rw [path.headOf_seq] at within
  have hi : (seq - a.seq - 1).toNat < lines.length := by omega
  refine ⟨lines.take (seq - a.seq - 1).toNat, lines[(seq - a.seq - 1).toNat],
    lines.drop ((seq - a.seq - 1).toNat + 1), ?_, ?_⟩
  · rw [getElem_cons_drop, take_append_drop]
  · have := path.getElem_seq (getElem?_eq_getElem hi)
    omega

theorem Path.epochAt_iff (path : Path env a lines) (anchor : report.trusted = some a)
    (head : report.head = headOf a lines)
    (transitions : report.transitions = transitionsFrom a.epoch lines) :
    report.epochAt seq = some epoch ↔
      ∃ p ∈ positions a lines, p.seq = seq ∧ p.epoch = epoch := by
  have unfolded : report.epochAt seq =
      if seq < a.seq ∨ (headOf a lines).seq < seq then none else some (epochOn a lines seq) := by
    simp only [ExportReport.epochAt, anchor, head, transitions, Option.bind_eq_bind,
      Option.bind_some, epochOn]
    split
    · rfl
    · cases (transitionsFrom a.epoch lines).reverse.find? fun t => t.seq ≤ seq <;> rfl
  rw [unfolded]
  have headSeq := path.headOf_seq
  constructor
  · intro h
    split at h
    · cases h
    next within =>
      obtain rfl := Option.some.inj h
      by_cases atAnchor : seq = a.seq
      · exact ⟨a, .head _, atAnchor.symm, by rw [atAnchor, path.epochOn_anchor]⟩
      · obtain ⟨x, line, y, rfl, rfl⟩ := @Path.exists_row env a lines seq path (by omega) (by omega)
        exact ⟨line.position, mem_positions.mpr (.inr ⟨line, by simp, rfl⟩), rfl,
          path.epochOn_row.symm⟩
  · rintro ⟨p, hp, rfl, rfl⟩
    rcases mem_positions.mp hp with rfl | ⟨line, hline, rfl⟩
    · rw [if_neg (by omega), path.epochOn_anchor]
    · have := path.anchor_lt hline
      have := path.le_head hline
      have seq : line.position.seq = line.seq := rfl
      rw [seq, if_neg (by omega)]
      obtain ⟨x, y, rfl⟩ := append_of_mem hline
      rw [path.epochOn_row]
      rfl

/-! ## Consistent reports -/

/-- The report knows the position: at its seq it has this chain and this epoch. -/
def ExportReport.Names (report : ExportReport) (c : Checkpoint) : Prop :=
  c.seq ≤ report.head.seq ∧ report.chainAt c.seq = some c.chain ∧
    report.epochAt c.seq = some c.epoch

instance (report : ExportReport) (c : Checkpoint) : Decidable (report.Names c) :=
  inferInstanceAs (Decidable (_ ∧ _ ∧ _))

/-- What holds of every anchored report of the verifier. -/
structure Consistent (report : ExportReport) (a : Checkpoint) : Prop where
  trusted : report.trusted = some a
  anchor_le : a.seq ≤ report.head.seq
  head : report.Names report.head
  evidence : ∀ row ∈ report.expiries, row.verified = true → row.evidenceSeq ≤ report.head.seq
  counted : report.unverifiedExpiryEvidence = report.expiries.countP fun row => !row.verified

variable {row : ExpiredRowEvidence}

theorem Accepted.consistent (h : Accepted env a lines) (pos : ∀ line ∈ lines, 1 ≤ line.seq) :
    Consistent (exportReport a lines) a where
  trusted := rfl
  anchor_le := by
    show a.seq ≤ (headOf a lines).seq
    rw [h.path.headOf_seq]
    omega
  head := by
    refine ⟨Int.le_refl _, ?_, ?_⟩
    · exact (h.path.chainAt_iff pos rfl rfl).mpr ⟨_, headOf_mem a lines, rfl, rfl⟩
    · exact (h.path.epochAt_iff rfl rfl rfl).mpr ⟨_, headOf_mem a lines, rfl, rfl⟩
  evidence := by
    intro row hrow verified
    obtain ⟨line, -, e, -, rfl⟩ := mem_expiriesOf.mp hrow
    simp only [confirmedAt, any_eq_true, decide_eq_true_eq] at verified
    obtain ⟨source, hsource, rfl, -⟩ := verified
    exact h.path.le_head hsource
  counted := rfl

/-- What the loop keeps of the anchored path in an identity-chain export. -/
structure Tracks (a : Checkpoint) (p : Progress) : Prop where
  anchored : p.report.anchored = true
  anchor : p.report.anchor = some a
  length : (p.report.chains.length : Int) = p.head.seq - a.seq
  chain : p.report.chains.getLast?.getD a.chain = p.head.chain
  epoch : (p.report.transitions.getLast?.map EpochTransition.newEpoch).getD a.epoch = p.head.epoch
  before : ∀ t ∈ p.report.transitions, t.seq ≤ p.head.seq
  range : p.report.chains = [] ∨ (0 ≤ a.seq ∧ InInt64 p.head.seq)

theorem Tracks.start (a : Checkpoint) (mode : Mode) : Tracks a (.start (some a) mode) where
  anchored := rfl
  anchor := rfl
  length := by simp [Progress.start]
  chain := rfl
  epoch := rfl
  before := by simp [Progress.start]
  range := .inl rfl

theorem checkTransition_unattested {transition : Bool} {number : Nat} {oldEpoch : Int}
    {r q : ExportReport} (h : checkTransition false transition number line oldEpoch r = .ok q) :
    q = { r with
      transitions := r.transitions ++
        if transition then [⟨line.seq, oldEpoch, line.epoch, none⟩] else [] } := by
  cases transition with
  | true => exact (Except.ok.inj h).symm
  | false =>
    rw [if_neg (by simp), append_nil]
    exact (Except.ok.inj h).symm

variable {watermark : Option Int} {p q : Progress} {numbered : Text × Nat}

theorem Tracks.step (h : Tracks a p)
    (stepped : verifyLine env .identityChain watermark p numbered = .ok q) :
    Tracks a q := by
  unfold verifyLine at stepped
  split at stepped
  · cases stepped
  next line parsed =>
    split at stepped
    · cases stepped
    next nextSeq next =>
      simp only [h.anchored, Bool.true_and, reduceCtorEq, decide_false, except_iffs] at stepped
      obtain ⟨transition, position, -, -, n, -, report, checked, rfl⟩ := stepped
      obtain ⟨seq, -, epoch⟩ := checkPosition_iff.mp position
      obtain ⟨nextEq, inRange⟩ := checkedAdd_some next
      have pos := (parseLine_pos parsed).1
      have length := h.length
      rw [checkTransition_unattested checked]
      refine ⟨rfl, h.anchor, ?_, by simp, ?_, ?_, .inr ⟨?_, seq ▸ inRange⟩⟩
      · simp only [if_true, length_append, length_singleton]
        push_cast
        omega
      · rcases epoch with ⟨same, rfl⟩ | ⟨-, rfl⟩
        · simp only [Bool.false_eq_true, if_false, append_nil]
          rw [h.epoch, same]
        · simp
      · intro t ht
        rcases mem_append.mp ht with old | new
        · have := h.before t old
          show t.seq ≤ line.seq
          omega
        · split at new
          · obtain rfl := mem_singleton.mp new
            exact Int.le_refl _
          · cases new
      · rcases h.range with none | ⟨nonneg, -⟩
        · rw [none, length_nil] at length
          omega
        · exact nonneg

theorem Tracks.loop {texts : List (Text × Nat)} (h : Tracks a p)
    (looped : texts.foldlM (verifyLine env .identityChain watermark) p = .ok q) : Tracks a q :=
  foldlM_invariant (fun _ _ _ tracks stepped => tracks.step stepped) h looped

/-- The last chain value and the last transition are the head's. -/
theorem Tracks.names_head (h : Tracks a p) (trusted : report.trusted = some a)
    (head : report.head = p.head) (chains : report.chains = p.report.chains)
    (transitions : report.transitions = p.report.transitions) : report.Names report.head := by
  have length := h.length
  refine ⟨Int.le_refl _, ?_, ?_⟩
  · have last := h.chain
    rw [head]
    cases rows : p.report.chains using reverseRecOn with
    | nil =>
      rw [rows] at length last
      have same : p.head.seq = a.seq := by
        rw [length_nil] at length
        omega
      simp only [ExportReport.chainAt, trusted, same, Option.bind_eq_bind, Option.bind_some,
        if_true]
      exact congrArg some last
    | append_singleton earlier chain =>
      rw [rows] at length last
      rw [length_append, length_singleton] at length
      push_cast at length
      obtain ⟨nonneg, range⟩ := h.range.resolve_left (by simp [rows])
      have here : p.head.seq = a.seq + earlier.length + 1 := by omega
      rw [chainAt_row trusted nonneg here range, chains, rows, getElem?_concat_length]
      simpa using last
  · simp only [ExportReport.epochAt, trusted, head, transitions, Option.bind_eq_bind,
      Option.bind_some]
    rw [if_neg (by omega)]
    have last := h.epoch
    cases recorded : p.report.transitions using reverseRecOn with
    | nil =>
      rw [recorded] at last
      exact congrArg some last
    | append_singleton earlier t =>
      have before : t.seq ≤ p.head.seq := h.before t (by simp [recorded])
      rw [recorded, getLast?_concat] at last
      rw [reverse_append, reverse_singleton, singleton_append, find?_cons]
      simp only [before, decide_true]
      exact congrArg some last

theorem unverified_false {ledger : ExpiryLedger} (h : row ∈ ledger.unverified) :
    row.verified = false := by
  unfold ExpiryLedger.unverified ExpiryLedger.sortBySeq at h
  rw [mem_insertionSort, mem_flatMap] at h
  obtain ⟨entry, -, hrow⟩ := h
  obtain ⟨pending, -, rfl⟩ := mem_map.mp hrow
  rfl

variable {mode : Mode}

/-- Every anchored report of the verifier is consistent. -/
theorem verify_consistent {start : Anchor}
    (h : verify env text (some start) mode watermark = .ok report) :
    Consistent report start.position := by
  cases mode with
  | bodies =>
    obtain ⟨lines, reads, accepted, -, -, rfl⟩ := verify_iff.mp h
    exact accepted.consistent fun line hline => (reads.pos line hline).1
  | identityChain =>
    simp only [verify, finish, except_iffs] at h
    obtain ⟨p, looped, -, out, unverified, rfl⟩ := h
    have tracks := (Tracks.start start.position .identityChain).loop looped
    unfold settleExpiries at unverified
    rw [tracks.anchor] at unverified
    obtain rfl := Except.ok.inj unverified
    have trusted : p.report.trusted = some start.position := by
      rw [ExportReport.trusted, tracks.anchored, tracks.anchor]
      rfl
    have length := tracks.length
    refine ⟨trusted, ?_, tracks.names_head trusted rfl rfl rfl, ?_, rfl⟩
    · show start.position.seq ≤ p.head.seq
      omega
    · intro row hrow verified
      rw [unverified_false hrow] at verified
      cases verified

/-- The anchor is fixed for the whole loop. -/
theorem verifyLine_trusted (h : verifyLine env mode watermark p numbered = .ok q) :
    q.report.anchor = p.report.anchor := by
  unfold verifyLine at h
  split at h
  · cases h
  · split at h
    · cases h
    · simp only [except_iffs] at h
      obtain ⟨_, -, -, -, _, -, report, checked, rfl⟩ := h
      show report.anchor = p.report.anchor
      unfold checkTransition at checked
      split_ifs at checked
      · split at checked <;> cases checked
        rfl
      · cases checked
        rfl
      · cases checked
        rfl

theorem verify_unanchored (h : verify env text none mode watermark = .ok report) :
    report.trusted = none := by
  simp only [verify, finish, except_iffs] at h
  obtain ⟨p, looped, -, out, -, rfl⟩ := h
  have anchor : p.report.anchor = none := by
    refine foldlM_invariant (P := fun p => p.report.anchor = none) ?_ rfl looped
    intro p numbered q none stepped
    rw [verifyLine_trusted stepped, none]
  show p.report.anchor.filter _ = none
  rw [anchor]
  rfl

end KnowledgePlatform.Audit
