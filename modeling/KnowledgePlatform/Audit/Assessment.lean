import KnowledgePlatform.Audit.Report
import Mathlib.Data.Prod.Lex

/-! Assessing a verified export against out-of-band checkpoints and recovery records. -/

namespace KnowledgePlatform.Audit

open List

/-- The operator's out-of-band record of an epoch transition. -/
structure RecoveryRecord where
  (oldEpoch newEpoch restoredHeadSeq : Int)
  restoredHeadChain : Digest
  lostUpper : Int
  lostUpperKnown : Bool
deriving DecidableEq

namespace RecoveryRecord

/-- Whether the recovery lost, or may have lost, rows. -/
def loses (record : RecoveryRecord) : Bool :=
  !record.lostUpperKnown || decide (record.restoredHeadSeq < record.lostUpper)

/-- Whether `seq` lies in the lost range; an unknown bound covers every later seq. -/
def covers (record : RecoveryRecord) (seq : Int) : Bool :=
  decide (record.restoredHeadSeq < seq) &&
    (!record.lostUpperKnown || decide (seq ≤ record.lostUpper))

/-- Whether the body of a transition, if there is one, says what the record says. -/
def attestedBy (record : RecoveryRecord) : Option EpochAttestation → Bool
  | none => true
  | some body =>
    body.restoredHeadSeq = record.restoredHeadSeq ∧
      body.restoredHeadChain = record.restoredHeadChain ∧
      body.lostUpperSeq = record.lostUpper ∧ body.lostUpperKnown = record.lostUpperKnown ∧
      (body.classification ≠ .plannedMove ∨ record.loses = false)

/-- Whether the record describes the transition on the verified path. -/
def «matches» (record : RecoveryRecord) (transition : EpochTransition) (report : ExportReport) :
    Bool :=
  match checkedSub transition.seq 1 with
  | none => false
  | some lastBefore =>
    decide (record.oldEpoch = transition.oldEpoch ∧ record.newEpoch = transition.newEpoch ∧
        0 ≤ record.restoredHeadSeq ∧ record.restoredHeadSeq < transition.seq ∧
        lastBefore ≤ record.lostUpper) &&
      record.attestedBy transition.attestation &&
      decide (∀ chain ∈ report.chainAt record.restoredHeadSeq, chain = record.restoredHeadChain)

end RecoveryRecord

/-- The overall verdict, from best to worst. -/
inductive ChainVerdict where
  | authentic
  | authenticThrough (seq : Int)
  | unverifiedExpiry
  | noCheckpoint
  | lost
  | unverifiedRecovery
  | tampered
  | unanchored
deriving DecidableEq

namespace ChainVerdict

def rank : ChainVerdict → Nat
  | authentic => 0
  | authenticThrough _ => 1
  | unverifiedExpiry => 2
  | noCheckpoint => 3
  | lost => 4
  | unverifiedRecovery => 5
  | tampered => 6
  | unanchored => 7

/-- The derived order: by variant, then by the seq of `AuthenticThrough`. -/
def le : ChainVerdict → ChainVerdict → Bool
  | authenticThrough s, authenticThrough t => s ≤ t
  | v, w => v.rank ≤ w.rank

/-- `Ord::max`. -/
def max (v w : ChainVerdict) : ChainVerdict := if v.le w then w else v

end ChainVerdict

structure EpochReview where
  transition : EpochTransition
  record : Option RecoveryRecord
  restoredHeadVerified : Bool

inductive CheckpointComparison where
  | «match»
  | mismatch
  | epochMismatch
  | storeBehind
  | ahead
  | beforeAnchor
  | unanchored

def compareCheckpoint (report : ExportReport) (checkpoint : Checkpoint) : CheckpointComparison :=
  match report.trusted with
  | none => .unanchored
  | some anchor =>
    if report.head.seq < checkpoint.seq then .storeBehind
    else if checkpoint.seq < anchor.seq then .beforeAnchor
    else if report.chainAt checkpoint.seq = some checkpoint.chain then
      if report.epochAt checkpoint.seq ≠ some checkpoint.epoch then .epochMismatch
      else if checkpoint.seq = report.head.seq then .match
      else .ahead
    else .mismatch

structure CheckpointFinding where
  checkpoint : Checkpoint
  comparison : CheckpointComparison
  verdict : ChainVerdict
  explainedBy : Option RecoveryRecord

structure RecoveryAssessment where
  verdict : ChainVerdict
  authenticatedThrough : Option Int
  epochs : List EpochReview
  findings : List CheckpointFinding
  (unmatchedRecords recordsBeforeAnchor recordsAfterHead : List RecoveryRecord)
  unconfirmedExpiries : Nat

/-! ## Epochs and records -/

def reviewEpoch (report : ExportReport) (records : List RecoveryRecord)
    (transition : EpochTransition) : EpochReview :=
  let record := records.find? fun r => r.matches transition report
  let restoredHead := (record.map fun r => (r.restoredHeadSeq, r.restoredHeadChain)).or
    (transition.attestation.map fun a => (a.restoredHeadSeq, a.restoredHeadChain))
  { transition
    record
    restoredHeadVerified := ∃ head ∈ restoredHead, report.chainAt head.1 = some head.2 }

def EpochReview.verdict (epoch : EpochReview) : ChainVerdict :=
  match epoch.record with
  | none => .unverifiedRecovery
  | some record =>
    if ¬ epoch.restoredHeadVerified then .unverifiedRecovery
    else if record.loses then .lost
    else .authentic

/-- The loop of `classify_difference`; `disagrees` is its flag. -/
def classifyLater (checkpoint : Checkpoint) (disagrees : Bool) :
    List EpochReview → ChainVerdict × Option RecoveryRecord
  | [] => (if disagrees then .unverifiedRecovery else .tampered, none)
  | epoch :: epochs =>
    match epoch.record with
    | some record =>
      if checkpoint.seq ≤ record.restoredHeadSeq then (.tampered, none)
      else if record.covers checkpoint.seq then (.lost, some record)
      else classifyLater checkpoint true epochs
    | none => classifyLater checkpoint
        (disagrees || decide (epoch.transition.seq ≤ checkpoint.seq)) epochs

def classifyDifference (checkpoint : Checkpoint) (epochs : List EpochReview) :
    ChainVerdict × Option RecoveryRecord :=
  classifyLater checkpoint false
    (epochs.filter fun e => checkpoint.epoch ≤ e.transition.oldEpoch)

/-! ## Checkpoints -/

/-- The verdict of one checkpoint; one at the anchor's own seq confirms nothing. -/
def findingOf (report : ExportReport) (anchor : Checkpoint) (epochs : List EpochReview)
    (checkpoint : Checkpoint) : CheckpointFinding :=
  let comparison := compareCheckpoint report checkpoint
  let (verdict, explainedBy) :=
    if checkpoint.seq = anchor.seq then (.noCheckpoint, none)
    else
      match comparison with
      | .match => (.authentic, none)
      | .ahead => (.authenticThrough checkpoint.seq, none)
      | .beforeAnchor => (.noCheckpoint, none)
      | .unanchored => (.unanchored, none)
      | .epochMismatch => (.unverifiedRecovery, none)
      | .mismatch | .storeBehind => classifyDifference checkpoint epochs
  ⟨checkpoint, comparison, verdict, explainedBy⟩

structure Confirmation where
  worst : ChainVerdict
  authenticatedThrough : Option Int
  findings : List CheckpointFinding

/-- `Option::max` with a confirmed seq. -/
def confirmedThrough (through : Option Int) (seq : Int) : Option Int :=
  match through with
  | none => some seq
  | some t => some (Max.max t seq)

def assessCheckpoint (report : ExportReport) (anchor : Checkpoint) (epochs : List EpochReview)
    (c : Confirmation) (checkpoint : Checkpoint) : Confirmation :=
  let finding := findingOf report anchor epochs checkpoint
  let findings := c.findings ++ [finding]
  if checkpoint.seq = anchor.seq then { c with findings }
  else
    match finding.comparison with
    | .match | .ahead =>
      { c with
        authenticatedThrough := confirmedThrough c.authenticatedThrough checkpoint.seq
        findings }
    | .beforeAnchor => { c with findings }
    | _ => { c with worst := c.worst.max finding.verdict, findings }

/-- Records that describe no reviewed epoch. -/
def unusedRecords (epochs : List EpochReview) (records : List RecoveryRecord) :
    List RecoveryRecord :=
  records.filter fun record => !epochs.any fun e => e.record = some record

/-- Expired rows at or below `through` whose removal is not confirmed. -/
def unconfirmed (report : ExportReport) (through : Option Int) : Nat :=
  match through with
  | none => 0
  | some t => report.expiries.countP fun row =>
      decide (row.seq ≤ t) && (!row.verified || decide (t < row.evidenceSeq))

def confirmedVerdict (report : ExportReport) (through : Option Int) : ChainVerdict :=
  match through with
  | none => .noCheckpoint
  | some seq => if seq = report.head.seq then .authentic else .authenticThrough seq

/-- The verdict on the recoveries, before any checkpoint is compared. -/
def documentedVerdict (epochs : List EpochReview) (unmatchedRecords : List RecoveryRecord) :
    ChainVerdict :=
  let worst := epochs.foldl (fun worst e => worst.max e.verdict) .authentic
  if ¬ unmatchedRecords.isEmpty then worst.max .unverifiedRecovery else worst

def assessRecovery (report : ExportReport) (checkpoints : List Checkpoint)
    (records : List RecoveryRecord) : RecoveryAssessment :=
  match report.trusted with
  | none => ⟨.unanchored, none, [], [], records, [], [], 0⟩
  | some anchor =>
    let epochs := report.transitions.map (reviewEpoch report records)
    let (recordsBeforeAnchor, rest) := (unusedRecords epochs records).partition fun record =>
      record.newEpoch ≤ anchor.epoch
    let (recordsAfterHead, unmatchedRecords) := rest.partition fun record =>
      report.head.epoch ≤ record.oldEpoch
    let c := checkpoints.foldl (assessCheckpoint report anchor epochs)
      ⟨documentedVerdict epochs unmatchedRecords, none, []⟩
    let worst := c.worst.max (confirmedVerdict report c.authenticatedThrough)
    let unconfirmedExpiries := unconfirmed report c.authenticatedThrough
    let worst :=
      if 0 < unconfirmedExpiries ∨ (worst = .authentic ∧ 0 < report.unverifiedExpiryEvidence) then
        worst.max .unverifiedExpiry
      else worst
    { verdict := worst
      authenticatedThrough := c.authenticatedThrough
      epochs
      findings := c.findings
      unmatchedRecords
      recordsBeforeAnchor
      recordsAfterHead
      unconfirmedExpiries }

/-! ## When the verdict is `Authentic` -/

namespace ChainVerdict

theorem max_authentic {v w : ChainVerdict} :
    v.max w = .authentic ↔ v = .authentic ∧ w = .authentic := by
  cases v with
  | authenticThrough =>
    cases w with
    | authenticThrough =>
      rw [max]
      split <;> simp
    | _ => simp [max, le, rank]
  | _ => cases w <;> simp [max, le, rank]

theorem max_least {v : ChainVerdict} : v.max authentic = v := by
  cases v <;> rfl

theorem foldl_max_authentic {α : Type*} (f : α → ChainVerdict) (l : List α) (v : ChainVerdict) :
    l.foldl (fun worst x => worst.max (f x)) v = .authentic ↔
      v = .authentic ∧ ∀ x ∈ l, f x = .authentic := by
  induction l generalizing v with
  | nil => simp
  | cons x l ih =>
    rw [foldl_cons, ih, max_authentic, forall_mem_cons, and_assoc]

end ChainVerdict

theorem classifyLater_ne (checkpoint : Checkpoint) (disagrees : Bool) (epochs : List EpochReview) :
    (classifyLater checkpoint disagrees epochs).1 ≠ .authentic := by
  induction epochs generalizing disagrees with
  | nil => cases disagrees <;> simp [classifyLater]
  | cons _ _ ih =>
    unfold classifyLater
    split
    · split
      · simp
      · split
        · simp
        · exact ih _
    · exact ih _

section

variable (report : ExportReport) (a : Checkpoint) (epochs : List EpochReview)

/-- What a checkpoint raises the verdict to. -/
def raised (c : Checkpoint) : ChainVerdict :=
  let finding := findingOf report a epochs c
  if c.seq = a.seq then .authentic
  else
    match finding.comparison with
    | .match | .ahead | .beforeAnchor => .authentic
    | _ => finding.verdict

/-- The seq that a checkpoint confirms. -/
def confirmedSeq (c : Checkpoint) : Option Int :=
  if c.seq = a.seq then none
  else
    match compareCheckpoint report c with
    | .match | .ahead => some c.seq
    | _ => none

variable {report a epochs} {checkpoints : List Checkpoint} {s : Confirmation}

theorem assessCheckpoint_parts (c : Checkpoint) :
    (assessCheckpoint report a epochs s c).worst = s.worst.max (raised report a epochs c) ∧
      (assessCheckpoint report a epochs s c).authenticatedThrough =
        (confirmedSeq report a c).elim s.authenticatedThrough
          (confirmedThrough s.authenticatedThrough) := by
  have compared : (findingOf report a epochs c).comparison = compareCheckpoint report c := rfl
  simp only [assessCheckpoint, raised, confirmedSeq, compared]
  split
  · exact ⟨ChainVerdict.max_least.symm, rfl⟩
  · cases compareCheckpoint report c <;>
      exact ⟨by first | rfl | exact ChainVerdict.max_least.symm, rfl⟩

theorem foldl_parts :
    (checkpoints.foldl (assessCheckpoint report a epochs) s).worst =
        (checkpoints.map (raised report a epochs)).foldl ChainVerdict.max s.worst ∧
      (checkpoints.foldl (assessCheckpoint report a epochs) s).authenticatedThrough =
        (checkpoints.filterMap (confirmedSeq report a)).foldl confirmedThrough
          s.authenticatedThrough := by
  induction checkpoints generalizing s with
  | nil => exact ⟨rfl, rfl⟩
  | cons c _ ih =>
    obtain ⟨worst, through⟩ := @assessCheckpoint_parts report a epochs s c
    rw [foldl_cons, ih.1, ih.2, worst, through]
    refine ⟨rfl, ?_⟩
    cases confirms : confirmedSeq report a c with
    | none => rw [filterMap_cons_none confirms, Option.elim_none]
    | some => rw [filterMap_cons_some confirms, Option.elim_some, foldl_cons]

end

section

variable {report : ExportReport} {a : Checkpoint}

/-- A checkpoint after the anchor that the report names. -/
def ExportReport.Confirms (report : ExportReport) (a c : Checkpoint) : Prop :=
  a.seq < c.seq ∧ report.Names c

instance (report : ExportReport) (a c : Checkpoint) : Decidable (report.Confirms a c) :=
  inferInstanceAs (Decidable (_ ∧ _))

variable {c : Checkpoint}

section

variable (h : Consistent report a)
include h

theorem Consistent.names_head (names : report.Names c) (seq : c.seq = report.head.seq) :
    c = report.head := by
  obtain ⟨epoch, cseq, chain⟩ := c
  obtain ⟨-, chainC, epochC⟩ := names
  obtain ⟨-, chainH, epochH⟩ := h.head
  simp only at seq chainC epochC
  rw [seq, chainH] at chainC
  rw [seq, epochH] at epochC
  rw [seq, ← Option.some.inj chainC, ← Option.some.inj epochC]

theorem Consistent.compare_before (before : c.seq < a.seq) :
    compareCheckpoint report c = .beforeAnchor := by
  have := h.anchor_le
  simp only [compareCheckpoint, h.trusted]
  rw [if_neg (by omega), if_pos before]

theorem Consistent.compare_named (after : a.seq < c.seq) (names : report.Names c) :
    compareCheckpoint report c = if c.seq = report.head.seq then .match else .ahead := by
  obtain ⟨within, chain, epoch⟩ := names
  simp only [compareCheckpoint, h.trusted]
  rw [if_neg (by omega), if_neg (by omega), if_pos chain, if_neg (fun differ => differ epoch)]

theorem Consistent.compare_unnamed (after : a.seq < c.seq) (unnamed : ¬ report.Names c) :
    compareCheckpoint report c = .storeBehind ∨ compareCheckpoint report c = .epochMismatch ∨
      compareCheckpoint report c = .mismatch := by
  simp only [compareCheckpoint, h.trusted]
  by_cases past : report.head.seq < c.seq
  · left
    rw [if_pos past]
  · right
    rw [if_neg past, if_neg (by omega)]
    by_cases chain : report.chainAt c.seq = some c.chain
    · have epoch : report.epochAt c.seq ≠ some c.epoch := by
        intro epoch
        exact unnamed ⟨by omega, chain, epoch⟩
      left
      rw [if_pos chain, if_pos epoch]
    · right
      rw [if_neg chain]

/-- A checkpoint raises the verdict unless it lies at or before the anchor or is named by the
report, and it is confirmed in the last case. -/
theorem Consistent.checkpoint_iff (epochs : List EpochReview) (c : Checkpoint) :
    (raised report a epochs c = .authentic ↔ (a.seq < c.seq → report.Names c)) ∧
      confirmedSeq report a c = if report.Confirms a c then some c.seq else none := by
  unfold raised confirmedSeq ExportReport.Confirms
  rcases Int.lt_trichotomy c.seq a.seq with before | same | after
  · have : ¬ a.seq < c.seq := by omega
    simp [findingOf, h.compare_before before, this, Int.ne_of_lt before]
  · simp [same]
  · have apart : c.seq ≠ a.seq := Int.ne_of_gt after
    by_cases names : report.Names c
    · have comparison := h.compare_named after names
      split at comparison <;> simp [findingOf, comparison, apart, after, names]
    · have differs : (classifyDifference c epochs).1 ≠ .authentic := classifyLater_ne c false _
      rcases h.compare_unnamed after names with comparison | comparison | comparison <;>
        simp [findingOf, comparison, apart, after, names, differs]

end

end

theorem foldl_confirmedThrough (seqs : List Int) (t : Int) :
    seqs.foldl confirmedThrough (some t) = some (seqs.foldl Max.max t) := by
  induction seqs generalizing t with
  | nil => rfl
  | cons _ _ ih => rw [foldl_cons, confirmedThrough, ih, foldl_cons]

theorem foldl_confirmedThrough_none (seqs : List Int) :
    seqs.foldl confirmedThrough none = seqs.max? := by
  cases seqs with
  | nil => rfl
  | cons => rw [foldl_cons, confirmedThrough, foldl_confirmedThrough, max?_cons']

/-- The record chosen for a transition documents a lossless recovery on the verified path. -/
def Lossless (report : ExportReport) (record : RecoveryRecord) : Prop :=
  record.lostUpperKnown = true ∧ record.lostUpper = record.restoredHeadSeq ∧
    report.chainAt record.restoredHeadSeq = some record.restoredHeadChain

/-- The first record in list order that describes the transition. -/
def chosenRecord (report : ExportReport) (records : List RecoveryRecord)
    (transition : EpochTransition) : Option RecoveryRecord :=
  records.find? fun r => r.matches transition report

variable {report : ExportReport} {records : List RecoveryRecord}

theorem reviewEpoch_authentic {transition : EpochTransition} :
    (reviewEpoch report records transition).verdict = .authentic ↔
      ∃ record, chosenRecord report records transition = some record ∧ Lossless report record := by
  unfold reviewEpoch EpochReview.verdict chosenRecord Lossless
  cases chosen : records.find? fun r => r.matches transition report with
  | none => simp
  | some record =>
    have reaches : record.restoredHeadSeq ≤ record.lostUpper := by
      have matched : record.matches transition report = true := by simpa using find?_some chosen
      unfold RecoveryRecord.matches at matched
      split at matched
      · cases matched
      next lastBefore sub =>
        have := checkedSub_some sub
        simp only [Bool.and_eq_true, decide_eq_true_eq] at matched
        omega
    simp only [Option.map_some, Option.some_or, Option.mem_some_iff, exists_eq_left',
      Option.some.injEq, decide_eq_true_eq]
    by_cases verified : report.chainAt record.restoredHeadSeq = some record.restoredHeadChain
    · simp only [verified, not_true, if_false, and_true, RecoveryRecord.loses]
      by_cases lossy : record.restoredHeadSeq < record.lostUpper
      · have : record.lostUpper ≠ record.restoredHeadSeq := by omega
        simp [lossy, this]
      · have : record.lostUpper = record.restoredHeadSeq := by omega
        simp [this]
    · simp [verified]

theorem mem_unusedRecords {record : RecoveryRecord} :
    record ∈ unusedRecords (report.transitions.map (reviewEpoch report records)) records ↔
      record ∈ records ∧
        ∀ t ∈ report.transitions, chosenRecord report records t ≠ some record := by
  rw [unusedRecords, mem_filter]
  refine and_congr_right fun _ => ?_
  rw [Bool.not_eq_true', Bool.eq_false_iff, Ne, any_eq_true]
  constructor
  · intro unused t ht chosen
    exact unused ⟨_, mem_map_of_mem ht, decide_eq_true chosen⟩
  · rintro unused ⟨e, he, used⟩
    obtain ⟨t, ht, rfl⟩ := mem_map.mp he
    exact unused t ht (of_decide_eq_true used)

theorem ite_max_authentic {p : Prop} [Decidable p] {v w : ChainVerdict} (hw : w ≠ .authentic) :
    (if p then v.max w else v) = .authentic ↔ v = .authentic ∧ ¬ p := by
  split
  next holds =>
    simp [ChainVerdict.max_authentic, hw, holds]
  next fails =>
    simp [fails]

theorem documentedVerdict_authentic {epochs : List EpochReview}
    {unmatched : List RecoveryRecord} :
    documentedVerdict epochs unmatched = .authentic ↔
      (∀ e ∈ epochs, e.verdict = .authentic) ∧ unmatched = [] := by
  unfold documentedVerdict
  rw [ite_max_authentic (by simp), ChainVerdict.foldl_max_authentic, not_not, List.isEmpty_iff]
  simp

theorem confirmedVerdict_authentic {through : Option Int} :
    confirmedVerdict report through = .authentic ↔ through = some report.head.seq := by
  unfold confirmedVerdict
  cases through with
  | none => simp
  | some seq =>
    by_cases atHead : seq = report.head.seq
    · simp [atHead]
    · simp [atHead]

variable {a : Checkpoint}

/-- The head is confirmed when a checkpoint past the anchor names it. -/
theorem Consistent.through_head (h : Consistent report a) (epochs : List EpochReview)
    (checkpoints : List Checkpoint) (worst : ChainVerdict) :
    (checkpoints.foldl (assessCheckpoint report a epochs) ⟨worst, none, []⟩).authenticatedThrough =
        some report.head.seq ↔
      ∃ c ∈ checkpoints, c.seq ≠ a.seq ∧ c = report.head := by
  rw [foldl_parts.2, foldl_confirmedThrough_none, max?_eq_some_iff]
  simp only [mem_filterMap, (h.checkpoint_iff epochs _).2, Option.ite_none_right_eq_some,
    Option.some.injEq]
  constructor
  · rintro ⟨⟨c, hc, confirms, seq⟩, -⟩
    exact ⟨c, hc, Int.ne_of_gt confirms.1, h.names_head confirms.2 seq⟩
  · rintro ⟨c, hc, apart, rfl⟩
    have after : a.seq < report.head.seq := by
      have := h.anchor_le
      omega
    refine ⟨⟨_, hc, ⟨after, h.head⟩, rfl⟩, ?_⟩
    rintro _ ⟨c, -, confirms, rfl⟩
    exact confirms.2.1

/-- The verdict of an anchored report, part by part. -/
theorem assessRecovery_authentic {checkpoints : List Checkpoint} (h : Consistent report a) :
    (assessRecovery report checkpoints records).verdict = .authentic ↔
      (∀ t ∈ report.transitions,
        ∃ record, chosenRecord report records t = some record ∧ Lossless report record) ∧
      (∀ record ∈ records,
        (∀ t ∈ report.transitions, chosenRecord report records t ≠ some record) →
          record.newEpoch ≤ a.epoch ∨ report.head.epoch ≤ record.oldEpoch) ∧
      (∀ c ∈ checkpoints, a.seq < c.seq → report.Names c) ∧
      (∃ c ∈ checkpoints, c.seq ≠ a.seq ∧ c = report.head) ∧
      report.unverifiedExpiryEvidence = 0 := by
  have documented_iff : documentedVerdict (report.transitions.map (reviewEpoch report records))
      (((unusedRecords (report.transitions.map (reviewEpoch report records)) records).filter
        (not ∘ fun record => decide (record.newEpoch ≤ a.epoch))).filter
        (not ∘ fun record => decide (report.head.epoch ≤ record.oldEpoch))) = .authentic ↔
      (∀ t ∈ report.transitions,
        ∃ record, chosenRecord report records t = some record ∧ Lossless report record) ∧
      ∀ record ∈ records,
        (∀ t ∈ report.transitions, chosenRecord report records t ≠ some record) →
          record.newEpoch ≤ a.epoch ∨ report.head.epoch ≤ record.oldEpoch := by
    rw [documentedVerdict_authentic, forall_mem_map, filter_filter,
      filter_eq_nil_iff]
    simp only [reviewEpoch_authentic, mem_unusedRecords, Function.comp_apply, Bool.and_eq_true,
      Bool.not_eq_true', decide_eq_false_iff_not, and_imp]
    refine and_congr_right fun _ => forall_congr' fun record => forall_congr' fun _ =>
      forall_congr' fun _ => ?_
    tauto
  simp only [assessRecovery, h.trusted, partition_eq_filter_filter]
  generalize documentedVerdict _ _ = documented at documented_iff ⊢
  have worst : (checkpoints.foldl (assessCheckpoint report a
      (report.transitions.map (reviewEpoch report records))) ⟨documented, none, []⟩).worst =
        .authentic ↔ documented = .authentic ∧ ∀ c ∈ checkpoints, a.seq < c.seq →
          report.Names c := by
    rw [foldl_parts.1, foldl_map, ChainVerdict.foldl_max_authentic]
    simp only [(h.checkpoint_iff _ _).1]
  have through := h.through_head (report.transitions.map (reviewEpoch report records)) checkpoints
    documented
  generalize checkpoints.foldl _ _ = c at worst through ⊢
  rw [ite_max_authentic (by simp), ChainVerdict.max_authentic, confirmedVerdict_authentic, worst,
    through, documented_iff]
  constructor
  · rintro ⟨⟨⟨⟨lossless, used⟩, named⟩, atHead⟩, confirmed⟩
    refine ⟨lossless, used, named, atHead, ?_⟩
    by_contra unverified
    exact confirmed (.inr ⟨⟨⟨⟨lossless, used⟩, named⟩, atHead⟩, Nat.pos_of_ne_zero unverified⟩)
  · rintro ⟨lossless, used, named, atHead, verified⟩
    refine ⟨⟨⟨⟨lossless, used⟩, named⟩, atHead⟩, ?_⟩
    rintro (unconfirmedRows | ⟨-, unverified⟩)
    · have none : unconfirmed report (some report.head.seq) = 0 := by
        rw [h.counted, countP_eq_zero] at verified
        rw [unconfirmed, countP_eq_zero]
        intro row hrow
        have confirmed : row.verified = true := by simpa using verified row hrow
        have := h.evidence row hrow confirmed
        simp [confirmed]
        omega
      rw [through.mpr atHead, none] at unconfirmedRows
      omega
    · omega

/-- **The meaning of `Authentic`.** For every report of the verifier, in any mode, with or without
an anchor and a watermark: the head is named by a checkpoint past the anchor, no later checkpoint
disagrees, every recovery on the path is documented as lossless by the first record that describes
it, every other record lies outside the path's epochs, and every expiry is verified. -/
theorem authentic_iff (env : Env) (text : Json.Text) (start : Option Anchor) (mode : Mode)
    (watermark : Option Int) (report : ExportReport)
    (h : verify env text start mode watermark = .ok report) (checkpoints : List Checkpoint)
    (records : List RecoveryRecord) :
    (assessRecovery report checkpoints records).verdict = .authentic ↔
      ∃ anchor, report.anchored = true ∧ report.anchor = some anchor ∧
        (∃ c ∈ checkpoints, c.seq ≠ anchor.seq ∧ c.seq = report.head.seq ∧
          c.chain = report.head.chain ∧ c.epoch = report.head.epoch) ∧
        (∀ c ∈ checkpoints, anchor.seq < c.seq → c.seq ≤ report.head.seq ∧
          report.chainAt c.seq = some c.chain ∧ report.epochAt c.seq = some c.epoch) ∧
        (∀ t ∈ report.transitions, ∃ record,
          records.find? (fun r => r.matches t report) = some record ∧
            record.lostUpperKnown = true ∧ record.lostUpper = record.restoredHeadSeq ∧
            report.chainAt record.restoredHeadSeq = some record.restoredHeadChain) ∧
        (∀ record ∈ records,
          (∀ t ∈ report.transitions,
            records.find? (fun r => r.matches t report) ≠ some record) →
            record.newEpoch ≤ anchor.epoch ∨ report.head.epoch ≤ record.oldEpoch) ∧
        report.unverifiedExpiryEvidence = 0 := by
  cases start with
  | none =>
    have unanchored := verify_unanchored h
    rw [ExportReport.trusted, Option.filter_eq_none_iff] at unanchored
    constructor
    · intro authentic
      unfold assessRecovery at authentic
      rw [verify_unanchored h] at authentic
      cases authentic
    · rintro ⟨anchor, anchored, present, -⟩
      exact absurd anchored (unanchored anchor present)
  | some start =>
    have consistent := verify_consistent h
    obtain ⟨present, anchored⟩ := Option.filter_eq_some_iff.mp consistent.trusted
    rw [assessRecovery_authentic consistent]
    constructor
    · rintro ⟨lossless, used, named, ⟨c, hc, apart, rfl⟩, verified⟩
      exact ⟨start.position, anchored, present, ⟨_, hc, apart, rfl, rfl, rfl⟩, named,
        lossless, used, verified⟩
    · rintro ⟨anchor, -, same, ⟨c, hc, apart, seq, chain, epoch⟩, named, lossless, used, verified⟩
      obtain rfl : start.position = anchor := Option.some.inj (present.symm.trans same)
      have head : c = report.head := by
        cases c
        simp only at seq chain epoch
        rw [seq, chain, epoch]
      exact ⟨lossless, used, named, ⟨c, hc, apart, head⟩, verified⟩

/-- The sample export with a checkpoint at its head, a duplicate of it and one at the anchor. -/
theorem authentic_sample :
    (assessRecovery sampleReport [.genesis, sampleReport.head, sampleReport.head] []).verdict =
      .authentic := by
  refine (authentic_iff sampleEnv sampleExport (some .genesis) .bodies none sampleReport
    verifyExport_sample _ []).mpr ⟨.genesis, rfl, rfl, ?_, ?_, ?_, ?_, rfl⟩
  · exact ⟨sampleReport.head, by simp, by decide, rfl, rfl, rfl⟩
  · decide
  · intro t ht
    cases ht
  · intro record hrecord
    cases hrecord

/-! ## The order of the lists -/

namespace ChainVerdict

variable {u v w : ChainVerdict}

def through : ChainVerdict → Int
  | authenticThrough seq => seq
  | _ => 0

def order (v : ChainVerdict) : Lex (Nat × Int) := toLex (v.rank, v.through)

theorem le_iff : v.le w = true ↔ v.order ≤ w.order := by
  rw [order, order, Prod.Lex.toLex_le_toLex]
  cases v <;> cases w <;> simp [le, rank, through]

end ChainVerdict

section

variable {report : ExportReport} {a : Checkpoint} {epochs : List EpochReview}
  {checkpoints checkpoints' : List Checkpoint} {s : Confirmation}

end

section

variable {report : ExportReport} {records records' : List RecoveryRecord} {r q : RecoveryRecord}
  {t : EpochTransition}

end

end KnowledgePlatform.Audit
