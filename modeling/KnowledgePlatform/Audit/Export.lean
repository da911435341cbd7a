import KnowledgePlatform.Audit.Chain
import KnowledgePlatform.Audit.Kinds
import KnowledgePlatform.Lib.Keyed

/-! Offline verification of Store exports: one JSON line a row, checked from a trusted anchor. -/

namespace KnowledgePlatform.Audit

open Json (Text)

/-- What the verifier is built from: the hash, the reader of fractional numbers, the catalog. -/
structure Env where
  sha256 : Hash
  float : Text → Option String
  catalog : Catalog

/-- A trusted chain position; `epoch` is the `recovery_epoch` of the row at `seq`. -/
structure Checkpoint where
  (epoch seq : Int)
  chain : Digest
deriving DecidableEq

def Checkpoint.genesis : Checkpoint := ⟨1, 0, Audit.genesis⟩

inductive Anchor where
  | genesis
  | checkpoint (c : Checkpoint)

def Anchor.position : Anchor → Checkpoint
  | .genesis => .genesis
  | .checkpoint c => c

inductive RecoveryClassification where
  | restore
  | plannedMove
  | regression
deriving DecidableEq

namespace RecoveryClassification

def asStr : RecoveryClassification → String
  | restore => "restore"
  | plannedMove => "planned_move"
  | regression => "regression"

def all : List RecoveryClassification := [restore, plannedMove, regression]

def parse (text : String) : Option RecoveryClassification := all.find? fun c => c.asStr = text

end RecoveryClassification

structure EpochAttestation where
  restoredHeadSeq : Int
  restoredHeadChain : Digest
  (lostFromSeq lostUpperSeq : Int)
  lostUpperKnown : Bool
  classification : RecoveryClassification
deriving DecidableEq

structure EpochTransition where
  (seq oldEpoch newEpoch : Int)
  attestation : Option EpochAttestation
deriving DecidableEq

structure ExpiredRowEvidence where
  (seq evidenceSeq : Int)
  verified : Bool
deriving DecidableEq

structure ExportReport where
  anchored : Bool
  anchor : Option Checkpoint
  head : Checkpoint
  (rows bodies expired unverifiedExpiryEvidence unverifiedRestoredHeads : Nat)
  epochsAuthenticated : Bool
  chains : List Digest
  transitions : List EpochTransition
  expiries : List ExpiredRowEvidence
deriving DecidableEq

namespace ExportReport

/-- The anchor of an anchored report: `anchor.filter(|_| anchored)`. -/
def trusted (report : ExportReport) : Option Checkpoint :=
  report.anchor.filter fun _ => report.anchored

def epochAt (report : ExportReport) (seq : Int) : Option Int := do
  let anchor ← report.trusted
  if seq < anchor.seq ∨ report.head.seq < seq then none
  else
    match report.transitions.reverse.find? fun t => t.seq ≤ seq with
    | some t => some t.newEpoch
    | none => some anchor.epoch

def chainAt (report : ExportReport) (seq : Int) : Option Digest := do
  let anchor ← report.trusted
  if seq = anchor.seq then some anchor.chain
  else do
    let index ← checkedSub (← checkedSub seq anchor.seq) 1
    if 0 ≤ index then report.chains[index.toNat]? else none

end ExportReport

inductive ExportError where
  | malformed (line : Nat)
  | seqGap (line : Nat) (expected found : Int)
  | brokenLink (line : Nat)
  | chainMismatch (line : Nat)
  | digestMismatch (line : Nat)
  | eventIdMismatch (line : Nat)
  | bodyState (line : Nat)
  | originMismatch (line : Nat)
  | expiryOnControlEvent (line : Nat)
  | expiryEvidenceMissing (line : Nat)
  | expiryEvidenceMismatch (line : Nat)
  | epochRegressed (line : Nat)
  | epochSkipped (line : Nat)
  | unattestedEpochChange (line : Nat)
  | epochStartedWithoutTransition (line : Nat)
  | watermarkMismatch (watermark head : Int)
deriving DecidableEq

inductive Mode where
  | bodies
  | identityChain
deriving DecidableEq

/-! ## Lines -/

def retentionExpired : String := "audit.retention.expired"
def bodyPurged : String := "audit.body.purged"
def epochStarted : String := "audit.recovery.epoch_started"

/-- Details of the control bodies the verifier interprets; a missing or mistyped member
is `none`. -/
inductive Evidence where
  | retention (count : Option Int) (firstSeq lastSeq : Option (Option Int))
      (digest : Option Digest)
  | purge (targetSeq : Option Int) (targetEventId : Option Uuid)
  | epochStarted (oldEpoch newEpoch restoredHeadSeq : Option Int)
      (restoredHeadChain : Option Digest) (lostFromSeq lostUpperSeq : Option Int)
      (lostUpperKnown : Option Bool) (classification : Option RecoveryClassification)
deriving DecidableEq

structure Body where
  text : Text
  (id eventType source : Option String)
  evidence : Option Evidence
deriving DecidableEq

@[ext]
structure Line where
  seq : Int
  eventId : Uuid
  origin : Origin
  (digest prevChain chain : Digest)
  epoch : Int
  expiredBySeq : Option Int
  body : Option Body
deriving DecidableEq

/-- The `expired` flag; a line is only read when it equals `expired_by_seq.is_some()`. -/
def Line.expired (line : Line) : Bool := line.expiredBySeq.isSome

def nullableInt : Option Json → Option (Option Int)
  | none => none
  | some .null => some none
  | some v => v.asInt64.map some

def hexMember (v : Option Json) : Option Digest :=
  (v.bind Json.asStr).bind Digest.ofHex

def evidenceOf (eventType : String) (details : Json) : Option Evidence :=
  let int (name : String) := (details.get name).bind Json.asInt64
  if eventType = retentionExpired then
    some (.retention (int "count") (nullableInt (details.get "first_seq"))
      (nullableInt (details.get "last_seq")) (hexMember (details.get "expired_set_digest")))
  else if eventType = bodyPurged then
    some (.purge (int "target_seq")
      ((((details.get "target_event_id").bind Json.asStr).filter isUuid).bind Uuid.parse))
  else if eventType = epochStarted then
    some (.epochStarted (int "old_epoch") (int "new_epoch") (int "restored_head_seq")
      (hexMember (details.get "restored_head_chain")) (int "lost_from_seq")
      (int "lost_upper_seq") ((details.get "lost_upper_known").bind Json.asBool)
      (((details.get "classification").bind Json.asStr).bind RecoveryClassification.parse))
  else none

def bodyOf (text : Text) (envelope : Json) : Body :=
  let textOf (name : String) := (envelope.get name).bind Json.asStr
  { text
    id := textOf "id"
    eventType := textOf "type"
    source := textOf "source"
    evidence := do
      let eventType ← textOf "type"
      let details ← (← envelope.get "data").get "details"
      evidenceOf eventType details }

def lineKeys : List String :=
  ["chain", "envelope", "envelope_digest", "event_id", "expired", "expired_by_seq", "origin",
    "prev_chain", "recovery_epoch", "seq"]

/-- `expired_by_seq: Option<i64>`: null is `None`, anything but an `i64` is refused. -/
def optionInt (v : Json) : Option (Option Int) := nullableInt (some v)

/-- The typed members of a line; the envelope is kept as text. -/
structure RawLine where
  seq : Int
  (eventId origin envelopeDigest prevChain chain : String)
  recoveryEpoch : Int
  expired : Bool
  expiredBySeq : Option Int

def RawLine.read (object : Json) : Option RawLine := do
  return {
    seq := ← (← object.get "seq").asInt64
    eventId := ← (← object.get "event_id").asStr
    origin := ← (← object.get "origin").asStr
    envelopeDigest := ← (← object.get "envelope_digest").asStr
    prevChain := ← (← object.get "prev_chain").asStr
    chain := ← (← object.get "chain").asStr
    recoveryEpoch := ← (← object.get "recovery_epoch").asInt64
    expired := ← (← object.get "expired").asBool
    expiredBySeq := ← optionInt (← object.get "expired_by_seq") }

/-- A body is null or an object. -/
def readBody (text : Text) : Json → Option (Option Body)
  | .null => some none
  | .obj envelope => some (some (bodyOf text (.obj envelope)))
  | _ => none

def RawLine.WellFormed (raw : RawLine) : Prop :=
  1 ≤ raw.seq ∧ 1 ≤ raw.recoveryEpoch ∧ isUuid raw.eventId = true ∧
    raw.expired = raw.expiredBySeq.isSome

instance (raw : RawLine) : Decidable raw.WellFormed :=
  inferInstanceAs (Decidable (_ ∧ _ ∧ _ ∧ _))

/-- Reads a line's members; `text` is the envelope's text verbatim. -/
def readLine (object : Json) (text : Text) : Option Line := do
  let raw ← RawLine.read object
  let origin ← Origin.parse raw.origin
  if raw.WellFormed then
    let body ← readBody text (← object.get "envelope")
    return {
      seq := raw.seq
      eventId := ← Uuid.parse raw.eventId
      origin
      digest := ← Digest.ofHex raw.envelopeDigest
      prevChain := ← Digest.ofHex raw.prevChain
      chain := ← Digest.ofHex raw.chain
      epoch := raw.recoveryEpoch
      expiredBySeq := raw.expiredBySeq
      body }
  else none

/-- The closed key set, and no other member. -/
def hasLineKeys (object : Json) (members : List (String × Json)) : Bool :=
  members.length = lineKeys.length ∧ ∀ k ∈ lineKeys, (object.get k).isSome

def parseLine (env : Env) (text : Text) : Option Line := do
  -- First pass: closed key set, no duplicate names at any depth.
  let object ← (parseUnique env.float text).toOption
  let members ← object.asObj
  if hasLineKeys object members then
    -- Second pass: typed members, and the envelope's text verbatim.
    let raw ← (Json.documentMembers env.float maxJsonDepth text).toOption
    let envelope ← raw.find? fun m => m.name = "envelope"
    readLine object envelope.raw
  else none

/-- Whether the body's type and source belong to the line's origin: the catalog entry when the type
is known, the structural rule otherwise. -/
def originMatches (catalog : Catalog) (origin : Origin) (body : Body) : Bool :=
  match body.eventType, body.source with
  | some eventType, some source =>
    match catalog.get eventType with
    | some spec => spec.origin = origin ∧ spec.source = source
    | none =>
      match origin with
      | .store => isControlType eventType ∧ source = auditStoreSource
      | .relayControl => isControlType eventType ∧ source = auditRelaySource
      | .relay =>
        ¬ isControlType eventType ∧ source ≠ auditStoreSource ∧ source ≠ auditRelaySource
  | _, _ => false

/-- `str::split('\n')`. -/
def splitNewlines : Text → List Text
  | [] => [[]]
  | c :: cs =>
    if c = '\n' then [] :: splitNewlines cs
    else
      match splitNewlines cs with
      | line :: lines => (c :: line) :: lines
      | [] => [[c]]

/-- Without the last newline, or as it is when there is none. -/
def stripNewline (text : Text) : Text :=
  if text.getLast? = some '\n' then text.dropLast else text

def splitLines (text : Text) : List Text :=
  if text = [] then [] else splitNewlines (stripNewline text)

/-! ## Expiry bookkeeping -/

structure PendingExpiry where
  seq : Int
  eventId : Uuid
  line : Nat

/-- Expired rows grouped by `expired_by_seq`, and retention and purge bodies by seq with their
line; both in seq order. -/
structure ExpiryLedger where
  byEvidence : List (Int × List PendingExpiry)
  evidence : List (Int × Nat × Evidence)

namespace ExpiryLedger

def empty : ExpiryLedger := ⟨[], []⟩

def record (rows : List PendingExpiry) (evidenceSeq : Int) (verified : Bool) :
    List ExpiredRowEvidence :=
  rows.map fun row => ⟨row.seq, evidenceSeq, verified⟩

def sortBySeq (rows : List ExpiredRowEvidence) : List ExpiredRowEvidence :=
  rows.insertionSort fun a b => a.seq ≤ b.seq

/-- Every expired row, unverified. -/
def unverified (ledger : ExpiryLedger) : List ExpiredRowEvidence :=
  sortBySeq (ledger.byEvidence.flatMap fun (evidenceSeq, rows) => record rows evidenceSeq false)

/-- The rows of one evidence seq: unverified past the head, otherwise its evidence must exist. -/
def settleRows (ledger : ExpiryLedger) (headSeq : Int) (entry : Int × List PendingExpiry) :
    Except ExportError (List ExpiredRowEvidence) :=
  if headSeq < entry.1 then .ok (record entry.2 entry.1 false)
  else if (ledger.evidence.lookup entry.1).isNone then
    .error (.expiryEvidenceMissing ((entry.2.head?.map PendingExpiry.line).getD 0))
  else .ok []

/-- What is visible of a retention set that begins at or before the anchor. -/
def fits (count : Int) (first last : Option Int) (seqs : List Int) : Bool :=
  0 ≤ count ∧ seqs.length ≤ count.toNat ∧
    ∀ seq ∈ seqs, (∃ f ∈ first, f ≤ seq) ∧ ∃ l ∈ last, seq ≤ l

def settleEvidence (sha256 : Hash) (ledger : ExpiryLedger) (anchorSeq : Int)
    (entry : Int × Nat × Evidence) : Except ExportError (List ExpiredRowEvidence) :=
  let (evidenceSeq, line, evidence) := entry
  let rows := (ledger.byEvidence.lookup evidenceSeq).getD []
  match evidence with
  | .retention (some count) (some first) (some last) (some digest) =>
    let seqs := rows.map PendingExpiry.seq
    if ∃ f ∈ first, f ≤ anchorSeq then
      if fits count first last seqs then .ok (record rows evidenceSeq false)
      else .error (.expiryEvidenceMismatch line)
    else if 0 ≤ count ∧ seqs.length = count.toNat ∧ first = seqs.head? ∧ last = seqs.getLast? ∧
        expiredSetDigest sha256 seqs = digest then
      .ok (record rows evidenceSeq true)
    else .error (.expiryEvidenceMismatch line)
  | .retention .. => .error (.expiryEvidenceMismatch line)
  | .purge (some targetSeq) targetEventId =>
    let ok : Bool :=
      if targetSeq ≤ anchorSeq then rows = []
      else
        match rows with
        | [row] => row.seq = targetSeq ∧ some row.eventId = targetEventId
        | _ => false
    if ok then .ok (record rows evidenceSeq true) else .error (.expiryEvidenceMismatch line)
  | .purge none _ => .error (.expiryEvidenceMismatch line)
  | .epochStarted .. => .ok []

/-- Checks every expiry of an anchored body export against its evidence. -/
def settle (sha256 : Hash) (ledger : ExpiryLedger) (anchorSeq headSeq : Int) :
    Except ExportError (List ExpiredRowEvidence) := do
  let pending ← ledger.byEvidence.mapM (ledger.settleRows headSeq)
  let settled ← ledger.evidence.mapM (ledger.settleEvidence sha256 anchorSeq)
  return sortBySeq (pending.flatten ++ settled.flatten)

/-- Files an accepted line: an expired row under its evidence, a store retention or purge body
under its seq. -/
def add (ledger : ExpiryLedger) (number : Nat) (line : Line) : ExpiryLedger where
  byEvidence :=
    match line.expiredBySeq with
    | some evidenceSeq =>
      Keyed.upsert evidenceSeq
        (fun rows => rows.getD [] ++ [⟨line.seq, line.eventId, number⟩]) ledger.byEvidence
    | none => ledger.byEvidence
  evidence :=
    match line.origin, line.body.bind Body.evidence with
    | .store, some (.retention c f l d) =>
      Keyed.upsert line.seq (fun _ => (number, .retention c f l d)) ledger.evidence
    | .store, some (.purge s i) =>
      Keyed.upsert line.seq (fun _ => (number, .purge s i)) ledger.evidence
    | _, _ => ledger.evidence

end ExpiryLedger

/-! ## Verification -/

/-- The attestation of an epoch change by the line's body. -/
def attestTransition (line : Line) (oldEpoch : Int) (report : ExportReport) :
    Option EpochAttestation :=
  match line.body with
  | none => none
  | some body =>
    match body.evidence with
    | some (.epochStarted (some recordedOld) (some recordedNew) (some restoredSeq)
        (some restoredChain) (some lostFrom) (some lostUpper) (some lostUpperKnown)
        (some classification)) =>
      if line.origin = .store ∧ body.eventType = some epochStarted ∧ recordedOld = oldEpoch ∧
          recordedNew = line.epoch ∧ 0 ≤ restoredSeq ∧ restoredSeq < line.seq ∧
          checkedAdd restoredSeq 1 = some lostFrom ∧ restoredSeq ≤ lostUpper ∧
          (∀ chain ∈ report.chainAt restoredSeq, chain = restoredChain) then
        some ⟨restoredSeq, restoredChain, lostFrom, lostUpper, lostUpperKnown, classification⟩
      else none
    | _ => none

def isEpochStarted (line : Line) : Bool :=
  line.origin = .store ∧ line.body.bind Body.eventType = some epochStarted

/-- Contiguity: the answer is whether the line changes the epoch. -/
def checkPosition (anchored : Bool) (number : Nat) (line : Line) (head : Checkpoint)
    (nextSeq : Int) (rows : Nat) : Except ExportError Bool :=
  if anchored then do
    ensure (line.seq = nextSeq) (.seqGap number nextSeq line.seq)
    ensure (line.prevChain = head.chain) (.brokenLink number)
    ensure (head.epoch ≤ line.epoch) (.epochRegressed number)
    if head.epoch < line.epoch then do
      ensure (checkedAdd head.epoch 1 = some line.epoch) (.epochSkipped number)
      return true
    else return false
  else do
    ensure (¬ (0 < rows ∧ line.seq < nextSeq)) (.seqGap number nextSeq line.seq)
    return false

def checkExpiry (watermark : Option Int) (number : Nat) (line : Line) : Except ExportError Unit :=
  match line.expiredBySeq with
  | none => .ok ()
  | some evidenceSeq => do
    ensure (line.origin = .relay) (.expiryOnControlEvent number)
    ensure (¬ (evidenceSeq ≤ line.seq ∨ ∃ w ∈ watermark, w < evidenceSeq))
      (.expiryEvidenceMissing number)

/-- The answer is how many bodies the line adds. -/
def checkBody (env : Env) (mode : Mode) (number : Nat) (line : Line) : Except ExportError Nat :=
  match mode, line.expiredBySeq, line.body with
  | .bodies, none, some body => do
    ensure (envelopeDigest env.sha256 body.text = line.digest) (.digestMismatch number)
    ensure (body.id = some line.eventId.text) (.eventIdMismatch number)
    ensure (originMatches env.catalog line.origin body = true) (.originMismatch number)
    return 1
  | .bodies, some _, none => .ok 0
  | .identityChain, _, none => .ok 0
  | _, _, _ => .error (.bodyState number)

/-- Attests an epoch change, or refuses an epoch record that changes nothing; the answer is the
report with the transition. -/
def checkTransition (attests transition : Bool) (number : Nat) (line : Line) (oldEpoch : Int)
    (report : ExportReport) : Except ExportError ExportReport :=
  if transition then
    if attests then
      match attestTransition line oldEpoch report with
      | none => .error (.unattestedEpochChange number)
      | some attestation =>
        let before : Bool := ∃ a ∈ report.anchor, attestation.restoredHeadSeq < a.seq
        .ok { report with
          unverifiedRestoredHeads := report.unverifiedRestoredHeads + if before then 1 else 0
          transitions := report.transitions ++
            [⟨line.seq, oldEpoch, line.epoch, some attestation⟩] }
    else
      .ok { report with
        transitions := report.transitions ++ [⟨line.seq, oldEpoch, line.epoch, none⟩] }
  else if attests ∧ isEpochStarted line then .error (.epochStartedWithoutTransition number)
  else .ok report

structure Progress where
  head : Checkpoint
  report : ExportReport
  ledger : ExpiryLedger

def verifyLine (env : Env) (mode : Mode) (watermark : Option Int) (p : Progress)
    (numbered : Text × Nat) : Except ExportError Progress :=
  let number := numbered.2 + 1
  match parseLine env numbered.1 with
  | none => .error (.malformed number)
  | some line =>
    match checkedAdd p.head.seq 1 with
    | none => .error (.malformed number)
    | some nextSeq => do
      let anchored := p.report.anchored
      let transition ← checkPosition anchored number line p.head nextSeq p.report.rows
      ensure (chainNext env.sha256 line.prevChain line.seq line.eventId line.digest = line.chain)
        (.chainMismatch number)
      checkExpiry watermark number line
      let bodies ← checkBody env mode number line
      let report := { p.report with bodies := p.report.bodies + bodies }
      let report ← checkTransition (anchored && decide (mode = .bodies)) transition number line
        p.head.epoch report
      return {
        head := ⟨line.epoch, line.seq, line.chain⟩
        report := { report with
          expired := report.expired + if line.expired then 1 else 0
          rows := report.rows + 1
          chains := if anchored then report.chains ++ [line.chain] else report.chains }
        ledger := p.ledger.add number line }

def Progress.start (anchor : Option Checkpoint) (mode : Mode) : Progress where
  head := anchor.getD .genesis
  report :=
    { anchored := anchor.isSome
      anchor
      head := anchor.getD .genesis
      rows := 0
      bodies := 0
      expired := 0
      unverifiedExpiryEvidence := 0
      unverifiedRestoredHeads := 0
      epochsAuthenticated := anchor.isSome && decide (mode = .bodies)
      chains := []
      transitions := []
      expiries := [] }
  ledger := .empty

/-- The export ends at the manifest watermark, if one is given. -/
def checkWatermark (watermark : Option Int) (headSeq : Int) : Except ExportError Unit :=
  match watermark with
  | none => .ok ()
  | some w => ensure (headSeq = w) (.watermarkMismatch w headSeq)

/-- An anchored body export settles its expiries; others list them unverified. -/
def settleExpiries (env : Env) (mode : Mode) (p : Progress) :
    Except ExportError (List ExpiredRowEvidence) :=
  match p.report.anchor, mode with
  | some anchor, .bodies => p.ledger.settle env.sha256 anchor.seq p.head.seq
  | _, _ => .ok p.ledger.unverified

def finish (env : Env) (mode : Mode) (watermark : Option Int) (p : Progress) :
    Except ExportError ExportReport := do
  checkWatermark watermark p.head.seq
  let expiries ← settleExpiries env mode p
  return { p.report with
    head := p.head
    expiries
    unverifiedExpiryEvidence := expiries.countP fun row => !row.verified }

def verify (env : Env) (text : Text) (start : Option Anchor) (mode : Mode)
    (watermark : Option Int) : Except ExportError ExportReport := do
  let p ← (splitLines text).zipIdx.foldlM (verifyLine env mode watermark)
    (.start (start.map Anchor.position) mode)
  finish env mode watermark p

/-- A body export, contiguous from `start`. -/
def verifyExport (env : Env) (text : Text) (start : Anchor) : Except ExportError ExportReport :=
  verify env text (some start) .bodies none

end KnowledgePlatform.Audit
