import KnowledgePlatform.Audit.Export
import Mathlib.Data.List.Induction

/-! What an accepted body export is: rows in a path from the anchor, each checked against the rows
before it, with every expiry settled by evidence on the path. The verifier's loop and its ledger
decide exactly that. -/

namespace KnowledgePlatform.Audit

open List
open Json (Text)

variable {env : Env} {a : Checkpoint}

section

variable {text : Text} {line : Line}

theorem readLine_some {object : Json} (h : readLine object text = some line) :
    (1 ≤ line.seq ∧ 1 ≤ line.epoch) ∧
      ∃ v, object.get "envelope" = some v ∧ readBody text v = some line.body := by
  simp only [readLine, Option.bind_eq_bind, Option.bind_eq_some_iff, Option.ite_none_right_eq_some,
    Option.pure_def, Option.some.injEq] at h
  obtain ⟨_, -, _, -, wellFormed, v, envelope, _, readable, _, -, _, -, _, -, _, -, rfl⟩ := h
  exact ⟨⟨wellFormed.1, wellFormed.2.1⟩, v, envelope, readable⟩

/-- The two passes over a line. -/
theorem parseLine_some (h : parseLine env text = some line) : ∃ pairs ms m,
    parseUnique env.float text = .ok (.obj pairs) ∧
      Json.documentMembers env.float maxJsonDepth text = .ok ms ∧
      (ms.find? fun m => m.name = "envelope") = some m ∧
      readLine (.obj pairs) m.raw = some line := by
  simp only [parseLine, Option.bind_eq_bind, Option.bind_eq_some_iff,
    Option.ite_none_right_eq_some] at h
  obtain ⟨object, parsed, pairs, members, -, ms, raw, m, found, read⟩ := h
  cases object <;> cases members
  exact ⟨pairs, ms, m, toOption_some parsed, toOption_some raw, found, read⟩

end

/-! ## Closed forms of the loop's state -/

def Line.position (line : Line) : Checkpoint := ⟨line.epoch, line.seq, line.chain⟩

/-- The position a path has reached. -/
def headOf (a : Checkpoint) (lines : List Line) : Checkpoint :=
  (lines.getLast?.map Line.position).getD a

@[simp] theorem headOf_nil : headOf a [] = a := rfl

@[simp] theorem headOf_concat (lines : List Line) (line : Line) :
    headOf a (lines ++ [line]) = line.position := by
  simp [headOf]

theorem headOf_append (x y : List Line) : headOf a (x ++ y) = headOf (headOf a x) y := by
  cases y using reverseRecOn with
  | nil => simp
  | append_singleton => rw [← append_assoc, headOf_concat, headOf_concat]

/-- What a complete epoch record says, wherever it stands. -/
def Line.attestation (line : Line) : Option EpochAttestation :=
  match line.body.bind Body.evidence with
  | some (.epochStarted (some _) (some _) (some restoredSeq) (some restoredChain) (some lostFrom)
      (some lostUpper) (some lostUpperKnown) (some classification)) =>
    some ⟨restoredSeq, restoredChain, lostFrom, lostUpper, lostUpperKnown, classification⟩
  | _ => none

/-- The epoch changes of a path that starts in `epoch`. -/
def transitionsFrom : Int → List Line → List EpochTransition
  | _, [] => []
  | epoch, line :: lines =>
    (if line.epoch = epoch then [] else [⟨line.seq, epoch, line.epoch, line.attestation⟩]) ++
      transitionsFrom line.epoch lines

theorem transitionsFrom_append (epoch : Int) (x y : List Line) :
    transitionsFrom epoch (x ++ y) =
      transitionsFrom epoch x ++ transitionsFrom ((x.getLast?.map Line.epoch).getD epoch) y := by
  induction x generalizing epoch with
  | nil => rfl
  | cons line x ih =>
    have last : (((line :: x).getLast?.map Line.epoch).getD epoch) =
        (x.getLast?.map Line.epoch).getD line.epoch := by
      cases x with
      | nil => rfl
      | cons => simp [getLast?_eq_some_getLast]
    rw [cons_append, transitionsFrom, ih, transitionsFrom, last, append_assoc]

theorem transitionsFrom_path (x y : List Line) :
    transitionsFrom a.epoch (x ++ y) =
      transitionsFrom a.epoch x ++ transitionsFrom (headOf a x).epoch y := by
  rw [transitionsFrom_append, headOf]
  cases x.getLast? <;> rfl

/-- Whether the restored head lies before the anchor. -/
def EpochTransition.restoresBefore (anchorSeq : Int) (t : EpochTransition) : Bool :=
  ∃ x ∈ t.attestation, x.restoredHeadSeq < anchorSeq

/-- The report as the loop has it after `lines`. -/
def pathReport (a : Checkpoint) (lines : List Line) : ExportReport where
  anchored := true
  anchor := some a
  head := a
  rows := lines.length
  bodies := lines.countP fun line => !line.expired
  expired := lines.countP Line.expired
  unverifiedExpiryEvidence := 0
  unverifiedRestoredHeads :=
    (transitionsFrom a.epoch lines).countP (EpochTransition.restoresBefore a.seq)
  epochsAuthenticated := true
  chains := lines.map Line.chain
  transitions := transitionsFrom a.epoch lines
  expiries := []

/-- The ledger after `lines`, the first of them numbered `number`. -/
def ledgerFrom (ledger : ExpiryLedger) (number : Nat) : List Line → ExpiryLedger
  | [] => ledger
  | line :: lines => ledgerFrom (ledger.add number line) (number + 1) lines

theorem ledgerFrom_concat (ledger : ExpiryLedger) (number : Nat) (lines : List Line)
    (line : Line) :
    ledgerFrom ledger number (lines ++ [line]) =
      (ledgerFrom ledger number lines).add (number + lines.length) line := by
  induction lines generalizing ledger number with
  | nil => rfl
  | cons _ _ ih =>
    rw [cons_append, ledgerFrom, ih, ledgerFrom, length_cons]
    congr 1
    omega

def pathProgress (a : Checkpoint) (lines : List Line) : Progress where
  head := headOf a lines
  report := pathReport a lines
  ledger := ledgerFrom .empty 1 lines

/-! ## One row -/

/-- The row `line` continues the path `before` from `a`. -/
structure Next (env : Env) (a : Checkpoint) (before : List Line) (line : Line) : Prop where
  seq : checkedAdd (headOf a before).seq 1 = some line.seq
  link : line.prevChain = (headOf a before).chain
  hash : chainNext env.sha256 line.prevChain line.seq line.eventId line.digest = line.chain
  expiry : ∀ e ∈ line.expiredBySeq, line.origin = .relay ∧ line.seq < e ∧ line.body = none
  stored : line.expiredBySeq = none → ∃ body, line.body = some body ∧
    envelopeDigest env.sha256 body.text = line.digest ∧ body.id = some line.eventId.text ∧
    originMatches env.catalog line.origin body = true
  epoch : (line.epoch = (headOf a before).epoch ∧ isEpochStarted line = false) ∨
    (checkedAdd (headOf a before).epoch 1 = some line.epoch ∧
      ∃ attestation,
        attestTransition line (headOf a before).epoch (pathReport a before) = some attestation)

variable {line : Line} {oldEpoch : Int}

theorem attestTransition_some {report : ExportReport} {attestation : EpochAttestation}
    (h : attestTransition line oldEpoch report = some attestation) :
    line.attestation = some attestation ∧ isEpochStarted line = true := by
  unfold attestTransition at h
  split at h
  · cases h
  next body hbody =>
    split at h
    next evidence =>
      split_ifs at h with checks
      rw [← h, Line.attestation, hbody, Option.bind_some, evidence]
      exact ⟨rfl, by simp [isEpochStarted, hbody, checks.1, checks.2.1]⟩
    · cases h

variable {number : Nat} {transition : Bool}

theorem checkPosition_iff {rows : Nat} {head : Checkpoint} {nextSeq : Int} :
    checkPosition true number line head nextSeq rows = .ok transition ↔
      line.seq = nextSeq ∧ line.prevChain = head.chain ∧
        ((line.epoch = head.epoch ∧ transition = false) ∨
          (checkedAdd head.epoch 1 = some line.epoch ∧ transition = true)) := by
  simp only [checkPosition, if_true, ensure_bind_iff]
  refine and_congr_right fun _ => and_congr_right fun _ => ?_
  by_cases advances : head.epoch < line.epoch
  · rw [if_pos advances, ensure_bind_iff]
    constructor
    · rintro ⟨-, step, h⟩
      exact .inr ⟨step, (Except.ok.inj h).symm⟩
    · rintro (⟨same, -⟩ | ⟨step, rfl⟩)
      · omega
      · exact ⟨Int.le_of_lt advances, step, rfl⟩
  · rw [if_neg advances]
    constructor
    · rintro ⟨least, h⟩
      exact .inl ⟨by omega, (Except.ok.inj h).symm⟩
    · rintro (⟨same, rfl⟩ | ⟨step, -⟩)
      · exact ⟨by omega, rfl⟩
      · have := (checkedAdd_some step).1
        omega

/-- The line names no evidence past the watermark. -/
def Line.Within (watermark : Option Int) (line : Line) : Prop :=
  ∀ e ∈ line.expiredBySeq, ∀ w ∈ watermark, e ≤ w

variable {watermark : Option Int}

theorem checkExpiry_iff {u : Unit} :
    checkExpiry watermark number line = .ok u ↔
      (∀ e ∈ line.expiredBySeq, line.origin = .relay ∧ line.seq < e) ∧ line.Within watermark := by
  unfold checkExpiry Line.Within
  cases line.expiredBySeq with
  | none => simp
  | some => simp [ensure_bind_iff, ensure_iff, and_assoc]

theorem checkBody_iff {n : Nat} :
    checkBody env .bodies number line = .ok n ↔
      (n = if line.expired then 0 else 1) ∧ (∀ e ∈ line.expiredBySeq, line.body = none) ∧
      (line.expiredBySeq = none → ∃ body, line.body = some body ∧
        envelopeDigest env.sha256 body.text = line.digest ∧ body.id = some line.eventId.text ∧
        originMatches env.catalog line.origin body = true) := by
  unfold checkBody Line.expired
  cases line.expiredBySeq with
  | none =>
    cases line.body with
    | none => simp
    | some =>
      simp only [ensure_bind_iff, except_pure_iff]
      simp [@eq_comm Nat 1, and_assoc, and_comm, and_left_comm]
  | some => cases line.body <;> simp [@eq_comm Nat 0]

/-- The transition check of a body export. -/
theorem checkTransition_iff {r q : ExportReport} :
    checkTransition true transition number line oldEpoch r = .ok q ↔
      (transition = false ∧ isEpochStarted line = false ∧ q = r) ∨
      (transition = true ∧ ∃ attestation, attestTransition line oldEpoch r = some attestation ∧
        q = { r with
          unverifiedRestoredHeads := r.unverifiedRestoredHeads +
            if ∃ x ∈ r.anchor, attestation.restoredHeadSeq < x.seq then 1 else 0
          transitions := r.transitions ++
            [⟨line.seq, oldEpoch, line.epoch, some attestation⟩] }) := by
  unfold checkTransition
  cases transition with
  | false =>
    cases isEpochStarted line with
    | true => simp
    | false => simp [eq_comm (a := r)]
  | true =>
    simp only [if_true]
    cases attestTransition line oldEpoch r with
    | none => simp
    | some =>
      simp only [Bool.true_eq_false, false_and, Option.some.injEq, exists_eq_left', true_and,
        false_or, Except.ok.injEq, eq_comm (b := q), decide_eq_true_eq]

/-- An accepted row keeps the loop's state in closed form. -/
theorem pathProgress_concat (before : List Line) (line : Line) {n : Nat} {report : ExportReport}
    (epoch : (line.epoch = (headOf a before).epoch ∧ transition = false) ∨
      (checkedAdd (headOf a before).epoch 1 = some line.epoch ∧ transition = true))
    (bodies : n = if line.expired then 0 else 1)
    (h : checkTransition true transition (before.length + 1) line (headOf a before).epoch
      { pathReport a before with bodies := (pathReport a before).bodies + n } = .ok report) :
    pathProgress a (before ++ [line]) = {
      head := ⟨line.epoch, line.seq, line.chain⟩
      report := { report with
        expired := report.expired + if line.expired then 1 else 0
        rows := report.rows + 1
        chains := report.chains ++ [line.chain] }
      ledger := (ledgerFrom .empty 1 before).add (before.length + 1) line } := by
  have transitions := transitionsFrom_path (a := a) before [line]
  have ledger := ledgerFrom_concat .empty 1 before line
  rw [Nat.add_comm 1] at ledger
  have flag : (if line.expired = true then 0 else 1) = if line.expired = false then 1 else 0 := by
    cases line.expired <;> rfl
  simp only [transitionsFrom, append_nil] at transitions
  rw [checkTransition_iff] at h
  obtain ⟨rfl, -, rfl⟩ | ⟨rfl, attestation, attested, rfl⟩ := h
  · have same : line.epoch = (headOf a before).epoch := by simpa using epoch
    simp only [pathProgress, headOf_concat, Line.position, ledger, pathReport, transitions, same,
      if_true, append_nil, length_append, length_singleton, countP_append,
      countP_singleton, map_append, map_singleton, bodies, flag, Bool.not_eq_true']
  · have step : checkedAdd (headOf a before).epoch 1 = some line.epoch := by simpa using epoch
    have changed : ¬ line.epoch = (headOf a before).epoch := by
      have := (checkedAdd_some step).1
      omega
    have content := (attestTransition_some attested).1
    simp only [pathProgress, headOf_concat, Line.position, ledger, pathReport, transitions, changed,
      if_false, length_append, length_singleton, countP_append,
      countP_singleton, map_append, map_singleton, bodies, flag, Bool.not_eq_true',
      content, EpochTransition.restoresBefore, Option.mem_def, Option.some.injEq, exists_eq_left',
      decide_eq_true_eq]

variable {before : List Line}

/-- The loop's body accepts a row exactly when it continues the path. -/
theorem verifyLine_iff {text : Text} {p : Progress} :
    verifyLine env .bodies watermark (pathProgress a before) (text, before.length) = .ok p ↔
      ∃ line, parseLine env text = some line ∧ (Next env a before line ∧ line.Within watermark) ∧
        p = pathProgress a (before ++ [line]) := by
  unfold verifyLine
  cases parseLine env text with
  | none => simp
  | some line =>
    simp only [Option.some.injEq, exists_eq_left']
    have head : (pathProgress a before).head = headOf a before := rfl
    cases nextSeq : checkedAdd (pathProgress a before).head.seq 1 with
    | none =>
      refine iff_of_false nofun ?_
      rintro ⟨⟨next, -⟩, -⟩
      cases nextSeq.symm.trans next.seq
    | some =>
      simp only [show (pathProgress a before).report.anchored = true from rfl, except_bind_iff,
        checkPosition_iff, ensure_iff, checkExpiry_iff, checkBody_iff, Bool.true_and,
        decide_true]
      constructor
      · rintro ⟨transition, ⟨rfl, link, epoch⟩, -, hash, -, ⟨expiry, within⟩, n,
          ⟨bodies, gone, stored⟩, report, checked, h⟩
        refine ⟨⟨⟨nextSeq, link, hash, fun e he => ⟨(expiry e he).1, (expiry e he).2, gone e he⟩,
          stored, ?_⟩, within⟩, ?_⟩
        · obtain ⟨rfl, started, -⟩ | ⟨rfl, attestation, attested, -⟩ :=
            checkTransition_iff.mp checked
          · exact .inl ⟨by simpa [head] using epoch, started⟩
          · exact .inr ⟨by simpa [head] using epoch, attestation, attested⟩
        · rw [pathProgress_concat before line epoch bodies checked]
          exact (Except.ok.inj h).symm
      · rintro ⟨⟨next, within⟩, rfl⟩
        obtain ⟨transition, epoch, report, checked⟩ : ∃ transition,
            ((line.epoch = (headOf a before).epoch ∧ transition = false) ∨
              (checkedAdd (headOf a before).epoch 1 = some line.epoch ∧ transition = true)) ∧
            ∃ report, checkTransition true transition (before.length + 1) line
              (headOf a before).epoch
              { pathReport a before with
                bodies := (pathReport a before).bodies + if line.expired then 0 else 1 } =
                .ok report := by
          obtain ⟨same, started⟩ | ⟨step, attestation, attested⟩ := next.epoch
          · exact ⟨false, .inl ⟨same, rfl⟩, _, checkTransition_iff.mpr (.inl ⟨rfl, started, rfl⟩)⟩
          · exact ⟨true, .inr ⟨step, rfl⟩, _,
              checkTransition_iff.mpr (.inr ⟨rfl, attestation, attested, rfl⟩)⟩
        refine ⟨transition, ⟨Option.some.inj (next.seq.symm.trans nextSeq), next.link, epoch⟩, (),
          next.hash, (), ⟨fun e he => ⟨(next.expiry e he).1, (next.expiry e he).2.1⟩, within⟩, _,
          ⟨rfl, fun e he => (next.expiry e he).2.2, next.stored⟩, report, checked, ?_⟩
        rw [pathProgress_concat before line epoch rfl checked]
        rfl

/-! ## Whole exports -/

/-- The rows `lines` continue the path `before`, one after the other. -/
def Follows (env : Env) (a : Checkpoint) : List Line → List Line → Prop
  | _, [] => True
  | before, line :: lines => Next env a before line ∧ Follows env a (before ++ [line]) lines

/-- The rows form a path from the anchor. -/
abbrev Path (env : Env) (a : Checkpoint) (lines : List Line) : Prop := Follows env a [] lines

theorem follows_append {x y : List Line} :
    Follows env a before (x ++ y) ↔ Follows env a before x ∧ Follows env a (before ++ x) y := by
  induction x generalizing before with
  | nil => simp [Follows]
  | cons _ _ ih =>
    rw [cons_append, Follows, ih, Follows, and_assoc, append_assoc, singleton_append]

theorem follows_loop {texts : List Text} {p : Progress} :
    (texts.zipIdx before.length).foldlM (verifyLine env .bodies watermark)
        (pathProgress a before) = .ok p ↔
      ∃ lines, texts.map (parseLine env) = lines.map some ∧ Follows env a before lines ∧
        (∀ line ∈ lines, line.Within watermark) ∧ p = pathProgress a (before ++ lines) := by
  induction texts generalizing before with
  | nil => simp [Follows, except_pure_iff, @eq_comm _ p]
  | cons _ _ ih =>
    have step (line : Line) := @ih (before ++ [line])
    simp only [length_append, length_singleton, append_assoc, singleton_append] at step
    simp only [zipIdx_cons, foldlM_cons, except_bind_iff, verifyLine_iff, map_cons,
      @eq_comm _ (_ :: _), map_eq_cons_iff]
    simp [step, Follows, and_assoc, and_left_comm, ← exists_and_left, @eq_comm _ (map some _),
      @eq_comm _ (some _)]

section

variable {x y lines : List Line} {line other : Line}

theorem Path.next (h : Path env a (x ++ line :: y)) : Next env a x line :=
  (follows_append.mp h).2.1

theorem Path.initial (h : Path env a (x ++ y)) : Path env a x := (follows_append.mp h).1

theorem Path.next_of_mem (h : Path env a lines) (hl : line ∈ lines) :
    ∃ before, Next env a before line := by
  obtain ⟨x, y, rfl⟩ := append_of_mem hl
  exact ⟨x, h.next⟩

theorem Path.headOf_seq (h : Path env a lines) :
    (headOf a lines).seq = a.seq + lines.length := by
  induction lines using reverseRecOn with
  | nil => simp
  | append_singleton _ line ih =>
    have next := (checkedAdd_some h.next.seq).1
    rw [ih h.initial] at next
    rw [headOf_concat, length_append, length_singleton]
    show line.seq = _
    rw [next]
    push_cast
    omega

theorem Path.seq_eq (h : Path env a (x ++ line :: y)) : line.seq = a.seq + x.length + 1 := by
  rw [(checkedAdd_some h.next.seq).1, h.initial.headOf_seq]

section

variable (h : Path env a lines)
include h

theorem Path.inInt64 (hl : line ∈ lines) : InInt64 line.seq := by
  obtain ⟨x, y, rfl⟩ := append_of_mem hl
  exact (checkedAdd_some h.next.seq).2

theorem Path.anchor_lt (hl : line ∈ lines) : a.seq < line.seq := by
  obtain ⟨x, y, rfl⟩ := append_of_mem hl
  have := h.seq_eq
  omega

theorem Path.le_head (hl : line ∈ lines) :
    line.seq ≤ (headOf a lines).seq := by
  rw [h.headOf_seq]
  obtain ⟨x, y, rfl⟩ := append_of_mem hl
  have := h.seq_eq
  rw [length_append, length_cons]
  push_cast
  omega

theorem Path.sorted : lines.Pairwise fun l m => l.seq < m.seq := by
  induction lines using reverseRecOn with
  | nil => exact Pairwise.nil
  | append_singleton _ _ ih =>
    rw [pairwise_append]
    refine ⟨ih h.initial, pairwise_singleton _ _, ?_⟩
    intro l hl m hm
    obtain rfl := mem_singleton.mp hm
    have := (checkedAdd_some h.next.seq).1
    have := h.initial.le_head hl
    omega

end

theorem eq_of_seq (sorted : lines.Pairwise fun l m => l.seq < m.seq) (hl : line ∈ lines)
    (ho : other ∈ lines) (same : line.seq = other.seq) : line = other :=
  Keyed.Ordered.eq_of_key sorted hl ho same

end

end KnowledgePlatform.Audit
