import KnowledgePlatform.Audit.ExportPath
import Mathlib.Data.List.Pairwise

/-! Settling expiries: the ledger's two maps hold what the rows say, so `settle` accepts exactly
the paths whose every expiry is covered by evidence and whose every evidence fits its rows. -/

namespace KnowledgePlatform.Audit

open List

variable {sha256 : Hash} {anchorSeq headSeq : Int} {lines : List Line}

/-- The evidence removes bodies. -/
def Evidence.removes : Evidence → Bool
  | retention .. => true
  | purge .. => true
  | epochStarted .. => false

/-- The expiry evidence a row carries: a store retention or purge body. -/
def Line.expiryEvidence (line : Line) : Option Evidence :=
  if line.origin = .store then (line.body.bind Body.evidence).filter Evidence.removes else none

def Line.key (line : Line) : Int × Uuid := (line.seq, line.eventId)

def PendingExpiry.key (row : PendingExpiry) : Int × Uuid := (row.seq, row.eventId)

/-- The rows that name `evidenceSeq` as their evidence. -/
def expiredBy (lines : List Line) (evidenceSeq : Int) : List Line :=
  lines.filter fun line => line.expiredBySeq = some evidenceSeq

def expiredKeys (lines : List Line) (evidenceSeq : Int) : List (Int × Uuid) :=
  (expiredBy lines evidenceSeq).map Line.key

variable {line : Line} {e : Int}

theorem mem_expiredKeys {key : Int × Uuid} :
    key ∈ expiredKeys lines e ↔ ∃ line ∈ lines, line.expiredBySeq = some e ∧ line.key = key := by
  simp [expiredKeys, expiredBy, and_assoc]

theorem expiredKeys_append (x y : List Line) (e : Int) :
    expiredKeys (x ++ y) e = expiredKeys x e ++ expiredKeys y e := by
  simp [expiredKeys, expiredBy]

/-- What evidence requires of the rows it expired, given by seq and id. -/
def Evidence.Matches (sha256 : Hash) (anchorSeq : Int) (keys : List (Int × Uuid)) :
    Evidence → Prop
  | retention (some count) (some first) (some last) (some digest) =>
    if ∃ f ∈ first, f ≤ anchorSeq then
      ExpiryLedger.fits count first last (keys.map Prod.fst) = true
    else
      0 ≤ count ∧ (keys.map Prod.fst).length = count.toNat ∧
        first = (keys.map Prod.fst).head? ∧ last = (keys.map Prod.fst).getLast? ∧
        expiredSetDigest sha256 (keys.map Prod.fst) = digest
  | purge (some targetSeq) targetEventId =>
    if targetSeq ≤ anchorSeq then keys = []
    else ∃ eventId ∈ targetEventId, keys = [(targetSeq, eventId)]
  | epochStarted .. => True
  | _ => False

/-- Whether matching evidence settles its rows, or leaves them to an earlier anchor. -/
def Evidence.confirms (anchorSeq : Int) : Evidence → Bool
  | retention _ (some first) _ _ => ¬ ∃ f ∈ first, f ≤ anchorSeq
  | purge .. => true
  | _ => false

/-- The path carries every expiry's evidence up to the head, and all evidence fits. -/
structure Settled (sha256 : Hash) (anchorSeq headSeq : Int) (lines : List Line) : Prop where
  found : ∀ line ∈ lines, ∀ e ∈ line.expiredBySeq, e ≤ headSeq →
    ∃ row ∈ lines, row.seq = e ∧ ∃ evidence, row.expiryEvidence = some evidence
  fits : ∀ row ∈ lines, ∀ evidence ∈ row.expiryEvidence,
    evidence.Matches sha256 anchorSeq (expiredKeys lines row.seq)

/-- Whether the path holds settling evidence at `e`. -/
def confirmedAt (anchorSeq : Int) (lines : List Line) (e : Int) : Bool :=
  lines.any fun row => row.seq = e ∧ ∃ evidence ∈ row.expiryEvidence,
    evidence.confirms anchorSeq = true

/-- What is reported of an expired row. -/
def Line.expiry (anchorSeq : Int) (lines : List Line) (line : Line) : Option ExpiredRowEvidence :=
  line.expiredBySeq.map fun e => ⟨line.seq, e, confirmedAt anchorSeq lines e⟩

/-- The reported expiries, in seq order. -/
def expiriesOf (anchorSeq : Int) (lines : List Line) : List ExpiredRowEvidence :=
  lines.filterMap (Line.expiry anchorSeq lines)

/-! ## The ledger -/

section

variable (ledger : ExpiryLedger) (number : Nat) (line : Line)

theorem add_evidence : (ledger.add number line).evidence =
    match line.expiryEvidence with
    | some evidence => Keyed.upsert line.seq (fun _ => (number, evidence)) ledger.evidence
    | none => ledger.evidence := by
  unfold ExpiryLedger.add Line.expiryEvidence
  cases line.origin with
  | store =>
    cases line.body.bind Body.evidence with
    | none => rfl
    | some evidence => cases evidence <;> rfl
  | relay | relayControl => rfl

theorem add_byEvidence : (ledger.add number line).byEvidence =
    match line.expiredBySeq with
    | some e => Keyed.upsert e
        (fun rows => rows.getD [] ++ [⟨line.seq, line.eventId, number⟩]) ledger.byEvidence
    | none => ledger.byEvidence := rfl

end

/-- What `settle` collects, before it sorts. -/
def ExpiryLedger.collected (ledger : ExpiryLedger) (anchorSeq headSeq : Int) (lines : List Line) :
    List ExpiredRowEvidence :=
  (ledger.byEvidence.map fun entry =>
    if headSeq < entry.1 then record entry.2 entry.1 false else []).flatten ++
  (ledger.evidence.map fun entry => (expiredKeys lines entry.1).map fun key =>
    ⟨key.1, entry.1, entry.2.2.confirms anchorSeq⟩).flatten

/-- The ledger's maps hold what the rows say. -/
structure Files (ledger : ExpiryLedger) (lines : List Line) : Prop where
  rowsSorted : Keyed.Ordered Prod.fst ledger.byEvidence
  evidenceSorted : Keyed.Ordered Prod.fst ledger.evidence
  rows : ∀ e, (ledger.byEvidence.lookup e).map (List.map PendingExpiry.key) =
    if expiredKeys lines e = [] then none else some (expiredKeys lines e)
  evidenceOf : ∀ {e number evidence}, ledger.evidence.lookup e = some (number, evidence) →
    ∃ row ∈ lines, row.seq = e ∧ row.expiryEvidence = some evidence
  evidence : ∀ row ∈ lines, ∀ evidence ∈ row.expiryEvidence,
    ∃ number, ledger.evidence.lookup row.seq = some (number, evidence)

variable {ledger : ExpiryLedger}

/-- The rows filed under an evidence seq, by seq and id. -/
theorem Files.keys (h : Files ledger lines) (e : Int) :
    ((ledger.byEvidence.lookup e).getD []).map PendingExpiry.key = expiredKeys lines e := by
  have := h.rows e
  cases looked : ledger.byEvidence.lookup e with
  | none =>
    rw [looked] at this
    split at this
    next none =>
      exact none.symm
    · cases this
  | some =>
    rw [looked] at this
    split at this
    · cases this
    · exact Option.some.inj this

theorem Files.empty : Files .empty [] where
  rowsSorted := .nil
  evidenceSorted := .nil
  rows := by
    intro e
    rfl
  evidenceOf := by
    intro e number evidence h
    cases h
  evidence := by simp

theorem Files.add (h : Files ledger lines) (number : Nat)
    (later : ∀ row ∈ lines, row.seq < line.seq) :
    Files (ledger.add number line) (lines ++ [line]) where
  rowsSorted := by
    rw [add_byEvidence]
    cases line.expiredBySeq with
    | none => exact h.rowsSorted
    | some => exact h.rowsSorted.upsert _ _
  evidenceSorted := by
    rw [add_evidence]
    cases line.expiryEvidence with
    | none => exact h.evidenceSorted
    | some => exact h.evidenceSorted.upsert _ _
  rows := by
    intro e
    rw [add_byEvidence, expiredKeys_append]
    cases expired : line.expiredBySeq with
    | none =>
      have : expiredKeys [line] e = [] := by simp [expiredKeys, expiredBy, expired]
      rw [this, append_nil]
      exact h.rows e
    | some evidenceSeq =>
      rw [h.rowsSorted.lookup_upsert]
      by_cases same : e = evidenceSeq
      · subst same
        have here : expiredKeys [line] e = [line.key] := by simp [expiredKeys, expiredBy, expired]
        rw [here, if_pos rfl, Option.map_some, map_append, h.keys, if_neg (by simp)]
        rfl
      · have elsewhere : expiredKeys [line] e = [] := by
          simp [expiredKeys, expiredBy, expired, Ne.symm same]
        rw [elsewhere, append_nil, if_neg same]
        exact h.rows e
  evidenceOf := by
    intro e n evidence found
    rw [add_evidence] at found
    cases carried : line.expiryEvidence with
    | none =>
      rw [carried] at found
      obtain ⟨row, hrow, at_⟩ := h.evidenceOf found
      exact ⟨row, mem_append_left _ hrow, at_⟩
    | some own =>
      rw [carried] at found
      simp only [h.evidenceSorted.lookup_upsert] at found
      split at found
      next same =>
        refine ⟨line, by simp, same.symm, ?_⟩
        rw [carried, (Prod.mk.inj (Option.some.inj found)).2]
      · obtain ⟨row, hrow, at_⟩ := h.evidenceOf found
        exact ⟨row, mem_append_left _ hrow, at_⟩
  evidence := by
    intro row hrow evidence carried
    rw [add_evidence]
    rcases mem_append.mp hrow with old | new
    · obtain ⟨n, found⟩ := h.evidence row old evidence carried
      refine ⟨n, ?_⟩
      have := later row old
      cases line.expiryEvidence with
      | none => exact found
      | some own =>
        rw [h.evidenceSorted.lookup_upsert, if_neg (by omega)]
        exact found
    · obtain rfl := mem_singleton.mp new
      rw [Option.mem_def.mp carried]
      refine ⟨number, ?_⟩
      rw [h.evidenceSorted.lookup_upsert, if_pos rfl]

theorem files_ledgerFrom (sorted : lines.Pairwise fun l m => l.seq < m.seq) :
    Files (ledgerFrom .empty 1 lines) lines := by
  induction lines using reverseRecOn with
  | nil => exact Files.empty
  | append_singleton lines line ih =>
    rw [pairwise_append] at sorted
    rw [ledgerFrom_concat]
    apply (ih sorted.1).add
    intro row hrow
    exact sorted.2.2 row hrow line (by simp)

/-! ## Settling -/

theorem record_eq (rows : List PendingExpiry) (e : Int) (verified : Bool) :
    ExpiryLedger.record rows e verified =
      (rows.map PendingExpiry.key).map fun key => ⟨key.1, e, verified⟩ := by
  simp [ExpiryLedger.record, PendingExpiry.key]

variable {evidence : Evidence} {out : List ExpiredRowEvidence}

theorem settleEvidence_iff {number : Nat} (h : Files ledger lines)
    (removes : evidence.removes = true) :
    ledger.settleEvidence sha256 anchorSeq (e, number, evidence) = .ok out ↔
      evidence.Matches sha256 anchorSeq (expiredKeys lines e) ∧
        out = (expiredKeys lines e).map fun key => ⟨key.1, e, evidence.confirms anchorSeq⟩ := by
  have seqs : ((ledger.byEvidence.lookup e).getD []).map PendingExpiry.seq =
      (expiredKeys lines e).map Prod.fst := by
    rw [← h.keys, map_map]
    rfl
  simp only [ExpiryLedger.settleEvidence, record_eq, seqs, h.keys]
  cases evidence with
  | epochStarted => cases removes
  | retention count first last digest =>
    rcases count with _ | count
    · simp [Evidence.Matches]
    rcases first with _ | first
    · simp [Evidence.Matches]
    rcases last with _ | last
    · simp [Evidence.Matches]
    rcases digest with _ | digest
    · simp [Evidence.Matches]
    simp only [Evidence.Matches, Evidence.confirms]
    by_cases before : ∃ f ∈ first, f ≤ anchorSeq
    · simp only [before, if_true, ite_ok_iff, not_true, decide_false]
    · simp only [before, if_false, ite_ok_iff, not_false_eq_true, decide_true]
  | purge target id =>
    rcases target with _ | target
    · simp [Evidence.Matches]
    simp only [ite_ok_iff, Evidence.Matches, ← h.keys]
    refine and_congr ?_ Iff.rfl
    split
    · simp
    · match (ledger.byEvidence.lookup e).getD [] with
      | [] => simp
      | [row] => simp [PendingExpiry.key, and_comm, @eq_comm _ id]
      | first :: second :: rest => simp

theorem settleRows_iff {entry : Int × List PendingExpiry} :
    ledger.settleRows headSeq entry = .ok out ↔
      (headSeq < entry.1 ∨ (ledger.evidence.lookup entry.1).isSome) ∧
        out = if headSeq < entry.1 then ExpiryLedger.record entry.2 entry.1 false else [] := by
  unfold ExpiryLedger.settleRows
  by_cases past : headSeq < entry.1
  · simp [past, eq_comm (b := out)]
  · cases ledger.evidence.lookup entry.1 <;> simp [past, eq_comm (b := out)]

theorem Line.expiryEvidence_removes (h : line.expiryEvidence = some evidence) :
    evidence.removes = true := by
  unfold Line.expiryEvidence at h
  split at h
  · exact (Option.filter_eq_some_iff.mp h).2
  · cases h

section

variable (h : Files ledger lines)
include h

theorem Files.mem_evidence {entry : Int × Nat × Evidence} (he : entry ∈ ledger.evidence) :
    ∃ row ∈ lines, row.seq = entry.1 ∧ row.expiryEvidence = some entry.2.2 := by
  obtain ⟨e, number, evidence⟩ := entry
  exact h.evidenceOf (h.evidenceSorted.mem_iff_lookup.mp he)

theorem Files.mem_rows {entry : Int × List PendingExpiry} (he : entry ∈ ledger.byEvidence) :
    entry.2.map PendingExpiry.key = expiredKeys lines entry.1 ∧
      expiredKeys lines entry.1 ≠ [] := by
  obtain ⟨e, rows⟩ := entry
  have filed := h.rows e
  rw [h.rowsSorted.mem_iff_lookup.mp he] at filed
  split at filed
  · cases filed
  next some =>
    exact ⟨Option.some.inj filed, some⟩

/-- The checks of `settle` are those of the path. -/
theorem Files.settled_iff :
    ((∀ entry ∈ ledger.byEvidence,
        headSeq < entry.1 ∨ (ledger.evidence.lookup entry.1).isSome) ∧
      ∀ entry ∈ ledger.evidence,
        entry.2.2.Matches sha256 anchorSeq (expiredKeys lines entry.1)) ↔
      Settled sha256 anchorSeq headSeq lines := by
  constructor
  · rintro ⟨found, fits⟩
    refine ⟨?_, ?_⟩
    · intro line hline e expired within
      have filed := h.rows e
      have some : expiredKeys lines e ≠ [] :=
        ne_nil_of_mem (mem_expiredKeys.mpr ⟨line, hline, expired, rfl⟩)
      rw [if_neg some] at filed
      obtain ⟨rows, looked, -⟩ := Option.map_eq_some_iff.mp filed
      obtain past | looked := found (e, rows) (h.rowsSorted.mem_iff_lookup.mpr looked)
      · omega
      · obtain ⟨⟨number, evidence⟩, looked⟩ := Option.isSome_iff_exists.mp looked
        obtain ⟨row, hrow, seq, carried⟩ := h.evidenceOf looked
        exact ⟨row, hrow, seq, evidence, carried⟩
    · intro row hrow evidence carried
      obtain ⟨number, looked⟩ := h.evidence row hrow evidence carried
      exact fits _ (h.evidenceSorted.mem_iff_lookup.mpr looked)
  · rintro ⟨found, fits⟩
    refine ⟨?_, ?_⟩
    · intro entry he
      by_cases past : headSeq < entry.1
      · exact .inl past
      · obtain ⟨key, hkey⟩ := exists_mem_of_ne_nil _ (h.mem_rows he).2
        obtain ⟨line, hline, expired, -⟩ := mem_expiredKeys.mp hkey
        obtain ⟨row, hrow, seq, evidence, carried⟩ := found line hline _ expired (by omega)
        obtain ⟨number, looked⟩ := h.evidence row hrow evidence carried
        rw [← seq, looked]
        exact .inr rfl
    · intro entry he
      obtain ⟨row, hrow, seq, carried⟩ := h.mem_evidence he
      rw [← seq]
      exact fits row hrow _ carried

/-- The traversals of `settle`, visit by visit: rows past the head are kept unverified, evidence
on the path has to exist and to fit. -/
theorem settle_ok_iff :
    ledger.settle sha256 anchorSeq headSeq = .ok out ↔
      Settled sha256 anchorSeq headSeq lines ∧
        out = ExpiryLedger.sortBySeq (ledger.collected anchorSeq headSeq lines) := by
  have visitEvidence : ∀ entry ∈ ledger.evidence, ∀ y,
      ledger.settleEvidence sha256 anchorSeq entry = .ok y ↔
        entry.2.2.Matches sha256 anchorSeq (expiredKeys lines entry.1) ∧
          y = (expiredKeys lines entry.1).map fun key =>
            ⟨key.1, entry.1, entry.2.2.confirms anchorSeq⟩ := by
    intro entry he y
    obtain ⟨row, -, -, carried⟩ := h.mem_evidence he
    exact settleEvidence_iff h (Line.expiryEvidence_removes carried)
  simp only [ExpiryLedger.settle, except_iffs, mapM_ok_iff fun _ _ _ => settleRows_iff,
    mapM_ok_iff visitEvidence, ← h.settled_iff]
  simp [ExpiryLedger.collected, and_assoc, @eq_comm _ out]

end

/-! ## The reported expiries -/

theorem mem_expiriesOf {row : ExpiredRowEvidence} :
    row ∈ expiriesOf anchorSeq lines ↔
      ∃ line ∈ lines, ∃ e, line.expiredBySeq = some e ∧
        row = ⟨line.seq, e, confirmedAt anchorSeq lines e⟩ := by
  simp only [expiriesOf, Line.expiry, mem_filterMap, Option.map_eq_some_iff, @eq_comm _ row]

theorem expiriesOf_sorted (sorted : lines.Pairwise fun l m => l.seq < m.seq) :
    (expiriesOf anchorSeq lines).Pairwise fun r q => r.seq < q.seq := by
  unfold expiriesOf
  rw [pairwise_filterMap]
  apply sorted.imp
  intro l m below r hr q hq
  obtain ⟨e, -, rfl⟩ := Option.map_eq_some_iff.mp hr
  obtain ⟨e', -, rfl⟩ := Option.map_eq_some_iff.mp hq
  exact below

/-- Sorting by distinct seqs has one outcome. -/
theorem sortBySeq_eq {rows : List ExpiredRowEvidence} (perm : rows.Perm out)
    (sorted : out.Pairwise fun r q => r.seq < q.seq) : ExpiryLedger.sortBySeq rows = out := by
  let le (r q : ExpiredRowEvidence) : Prop := r.seq ≤ q.seq
  have total : Std.Total le := ⟨fun r q => Int.le_total r.seq q.seq⟩
  have trans : IsTrans ExpiredRowEvidence le := ⟨fun _ _ _ => Int.le_trans⟩
  have sortedPerm := (perm_insertionSort le rows).trans perm
  refine sortedPerm.eq_of_pairwise ?_ (pairwise_insertionSort le rows)
    (sorted.imp Int.le_of_lt)
  intro r q hr hq below above
  by_contra differ
  have apart : r.seq ≠ q.seq := by
    have distinct : out.Pairwise fun r q => r.seq ≠ q.seq := sorted.imp Int.ne_of_lt
    have : Std.Symm fun r q : ExpiredRowEvidence => r.seq ≠ q.seq := ⟨fun _ _ => Ne.symm⟩
    exact distinct.forall (sortedPerm.mem_iff.mp hr) hq differ
  exact apart (Int.le_antisymm below above)

/-- Lists tagged with the keys of a sorted map are disjoint. -/
theorem nodup_tagged {α : Type*} {m : List (Int × α)} {rows : Int × α → List ExpiredRowEvidence}
    (sorted : Keyed.Ordered Prod.fst m) (nodup : ∀ entry ∈ m, (rows entry).Nodup)
    (tagged : ∀ entry ∈ m, ∀ row ∈ rows entry, row.evidenceSeq = entry.1) :
    (m.map rows).flatten.Nodup := by
  rw [nodup_flatten]
  refine ⟨?_, ?_⟩
  · intro l hl
    obtain ⟨entry, he, rfl⟩ := mem_map.mp hl
    exact nodup entry he
  · rw [pairwise_map]
    refine Pairwise.imp_of_mem ?_ sorted
    intro p q hp hq below row hrow hrow'
    have := tagged p hp row hrow
    have := tagged q hq row hrow'
    omega

theorem expiredKeys_sorted (sorted : lines.Pairwise fun l m => l.seq < m.seq) (e : Int) :
    (expiredKeys lines e).Pairwise fun k l => k.1 < l.1 := by
  rw [expiredKeys, pairwise_map]
  exact sorted.filter _

theorem confirmedAt_eq (sorted : lines.Pairwise fun l m => l.seq < m.seq) {row : Line}
    (hrow : row ∈ lines) (carried : row.expiryEvidence = some evidence) :
    confirmedAt anchorSeq lines row.seq = evidence.confirms anchorSeq := by
  rw [Bool.eq_iff_iff]
  simp only [confirmedAt, any_eq_true, decide_eq_true_eq, Option.mem_def]
  constructor
  · rintro ⟨other, hother, same, found, carriedThere, confirms⟩
    obtain rfl := eq_of_seq sorted hother hrow same
    rw [carried] at carriedThere
    rwa [Option.some.inj carriedThere]
  · intro confirms
    exact ⟨row, hrow, rfl, evidence, carried, confirms⟩

theorem confirmedAt_missing (missing : ∀ line ∈ lines, line.seq ≠ e) :
    confirmedAt anchorSeq lines e = false := by
  rw [Bool.eq_false_iff]
  intro confirmed
  simp only [confirmedAt, any_eq_true, decide_eq_true_eq] at confirmed
  obtain ⟨row, hrow, same, -⟩ := confirmed
  exact missing row hrow same

theorem confirmedAt_past (below : ∀ line ∈ lines, line.seq ≤ headSeq) (past : headSeq < e) :
    confirmedAt anchorSeq lines e = false :=
  confirmedAt_missing fun line hline => ((below line hline).trans_lt past).ne

/-- What `settle` collects, before sorting, is what the rows report. -/
theorem Files.collected (h : Files ledger lines) (sorted : lines.Pairwise fun l m => l.seq < m.seq)
    (below : ∀ line ∈ lines, line.seq ≤ headSeq)
    (settled : Settled sha256 anchorSeq headSeq lines) :
    (ledger.collected anchorSeq headSeq lines).Perm (expiriesOf anchorSeq lines) := by
  have keyed (e : Int) (verified : Bool) :
      ((expiredKeys lines e).map fun key => (⟨key.1, e, verified⟩ : ExpiredRowEvidence)).Nodup := by
    rw [nodup_iff_pairwise_ne, pairwise_map]
    refine (expiredKeys_sorted sorted e).imp ?_
    intro k l below same
    exact Int.ne_of_lt below (congrArg ExpiredRowEvidence.seq same)
  have recorded : ∀ entry ∈ ledger.byEvidence,
      (if headSeq < entry.1 then ExpiryLedger.record entry.2 entry.1 false else []) =
        if headSeq < entry.1 then (expiredKeys lines entry.1).map fun key => ⟨key.1, entry.1, false⟩
        else [] := by
    intro entry he
    rw [record_eq, (h.mem_rows he).1]
  have distinct : (expiriesOf anchorSeq lines).Nodup := by
    apply Nodup.of_map ExpiredRowEvidence.seq
    rw [nodup_iff_pairwise_ne, pairwise_map]
    exact (expiriesOf_sorted sorted).imp Int.ne_of_lt
  rw [ExpiryLedger.collected, map_congr_left recorded]
  refine (perm_ext_iff_of_nodup ?_ distinct).mpr ?_
  · rw [nodup_append']
    refine ⟨nodup_tagged h.rowsSorted ?_ ?_, nodup_tagged h.evidenceSorted ?_ ?_, ?_⟩
    · intro entry _
      split
      · exact keyed _ _
      · exact nodup_nil
    · simp only [mem_ite_nil_right, mem_map]
      rintro entry - _ ⟨-, _, -, rfl⟩
      rfl
    · exact fun _ _ => keyed _ _
    · simp only [mem_map]
      rintro entry - _ ⟨_, -, rfl⟩
      rfl
    · -- pending rows name evidence past the head, settled ones evidence on the path
      simp only [List.Disjoint, ← flatMap_def, mem_flatMap, mem_ite_nil_right, mem_map]
      rintro _ ⟨entry, -, past, _, -, rfl⟩ ⟨other, ho, _, -, same⟩
      obtain ⟨source, hsource, seq, -⟩ := h.mem_evidence ho
      have := below source hsource
      have : other.1 = entry.1 := congrArg ExpiredRowEvidence.evidenceSeq same
      omega
  · intro row
    simp only [← flatMap_def, mem_append, mem_flatMap, mem_ite_nil_right, mem_map, mem_expiriesOf]
    constructor
    · rintro (⟨entry, he, past, key, hkey, rfl⟩ | ⟨entry, he, key, hkey, rfl⟩)
      all_goals
        obtain ⟨line, hline, expired, rfl⟩ := mem_expiredKeys.mp hkey
        refine ⟨line, hline, entry.1, expired, ?_⟩
      · rw [confirmedAt_past below past]
        rfl
      · obtain ⟨source, hsource, seq, carried⟩ := h.mem_evidence he
        rw [← seq, confirmedAt_eq sorted hsource carried]
        rfl
    · rintro ⟨line, hline, e, expired, rfl⟩
      have hkey : line.key ∈ expiredKeys lines e := mem_expiredKeys.mpr ⟨line, hline, expired, rfl⟩
      by_cases past : headSeq < e
      · obtain ⟨rows, looked, -⟩ := Option.map_eq_some_iff.mp
          ((h.rows e).trans (if_neg (ne_nil_of_mem hkey)))
        refine .inl ⟨_, h.rowsSorted.mem_iff_lookup.mpr looked, past, _, hkey, ?_⟩
        rw [confirmedAt_past below past]
        rfl
      · obtain ⟨source, hsource, rfl, evidence, carried⟩ :=
          settled.found line hline e expired (by omega)
        obtain ⟨number, looked⟩ := h.evidence source hsource evidence carried
        refine .inr ⟨_, h.evidenceSorted.mem_iff_lookup.mpr looked, _, hkey, ?_⟩
        rw [confirmedAt_eq sorted hsource carried]
        rfl

/-! ## Accepted exports -/

/-- The report of an accepted export. -/
def exportReport (a : Checkpoint) (lines : List Line) : ExportReport :=
  { pathReport a lines with
    head := headOf a lines
    expiries := expiriesOf a.seq lines
    unverifiedExpiryEvidence := (expiriesOf a.seq lines).countP fun row => !row.verified }

/-- The rows of a text, if every line is one. -/
def Reads (env : Env) (text : Json.Text) (lines : List Line) : Prop :=
  (splitLines text).map (parseLine env) = lines.map some

theorem Reads.parsed {text : Json.Text} {line : Line} (h : Reads env text lines)
    (hline : line ∈ lines) : ∃ t, parseLine env t = some line := by
  have : some line ∈ (splitLines text).map (parseLine env) := by
    rw [h]
    exact mem_map_of_mem hline
  obtain ⟨t, -, parsed⟩ := mem_map.mp this
  exact ⟨t, parsed⟩

/-- A settled path of rows. -/
structure Accepted (env : Env) (a : Checkpoint) (lines : List Line) : Prop where
  path : Path env a lines
  settled : Settled env.sha256 a.seq (headOf a lines).seq lines

variable {watermark : Option Int}

theorem checkWatermark_iff {u : Unit} :
    checkWatermark watermark headSeq = .ok u ↔ ∀ w ∈ watermark, headSeq = w := by
  unfold checkWatermark
  cases watermark with
  | none => simp
  | some => simp [ensure_iff]

variable {env : Env} {report : ExportReport}

theorem finish_iff {a : Checkpoint} (path : Path env a lines) :
    finish env .bodies watermark (pathProgress a lines) = .ok report ↔
      (∀ w ∈ watermark, (headOf a lines).seq = w) ∧
        Settled env.sha256 a.seq (headOf a lines).seq lines ∧ report = exportReport a lines := by
  have settles (out : List ExpiredRowEvidence) :
      settleExpiries env .bodies (pathProgress a lines) = .ok out ↔
        Settled env.sha256 a.seq (headOf a lines).seq lines ∧ out = expiriesOf a.seq lines := by
    have files := files_ledgerFrom path.sorted
    change (ledgerFrom .empty 1 lines).settle env.sha256 a.seq (headOf a lines).seq = .ok out ↔ _
    rw [settle_ok_iff files]
    refine and_congr_right fun settled => ?_
    rw [sortBySeq_eq (files.collected path.sorted (fun _ => path.le_head) settled)
      (expiriesOf_sorted path.sorted)]
  simp only [finish, except_iffs, checkWatermark_iff, settles]
  simp [@eq_comm _ report]
  rfl

/-- **Accepted exports.** A body export verifies from an anchor exactly when its lines are a
settled path from there, ending at the watermark if one is given. -/
theorem verify_iff {text : Json.Text} {start : Anchor} :
    verify env text (some start) .bodies watermark = .ok report ↔
      ∃ lines, Reads env text lines ∧ Accepted env start.position lines ∧
        (∀ line ∈ lines, line.Within watermark) ∧
        (∀ w ∈ watermark, (headOf start.position lines).seq = w) ∧
        report = exportReport start.position lines := by
  have loop (p : Progress) := @follows_loop env start.position watermark [] (splitLines text) p
  unfold verify
  rw [except_bind_iff]
  constructor
  · rintro ⟨p, looped, finished⟩
    obtain ⟨lines, reads, path, within, rfl⟩ := (loop p).mp looped
    obtain ⟨ends, settled, rfl⟩ := (finish_iff path).mp finished
    exact ⟨lines, reads, ⟨path, settled⟩, within, ends, rfl⟩
  · rintro ⟨lines, reads, ⟨path, settled⟩, within, ends, rfl⟩
    exact ⟨_, (loop _).mpr ⟨lines, reads, path, within, rfl⟩,
      (finish_iff path).mpr ⟨ends, settled, rfl⟩⟩

theorem verifyExport_iff {text : Json.Text} {start : Anchor} :
    verifyExport env text start = .ok report ↔
      ∃ lines, Reads env text lines ∧ Accepted env start.position lines ∧
        report = exportReport start.position lines := by
  unfold verifyExport
  simp [verify_iff, Line.Within]

/-! ## A small export

An expired row and the purge record that removed its body; one hash value stands for all digests.
Texts are assembled from characters, which evaluate faster than strings. -/

def quoted (text : Json.Text) : Json.Text := '"' :: (text ++ ['"'])

def memberText (name : String) (value : Json.Text) : Json.Text := quoted name.toList ++ ':' :: value

def objectText (members : List Json.Text) : Json.Text :=
  '{' :: ([','].intercalate members ++ ['}'])

def sampleId (last : Char) : Json.Text :=
  quoted ("00000000-".toList ++ "0000-7000-".toList ++ "8000-0000".toList ++ "0000000".toList ++
    [last])

def sampleDigest : Json.Text := quoted (toHex genesis.bytes)

def sampleRow (seq : Char) (origin : String) (expiredBy envelope : Json.Text) : Json.Text :=
  objectText [memberText "seq" [seq], memberText "event_id" (sampleId seq),
    memberText "origin" (quoted origin.toList), memberText "envelope_digest" sampleDigest,
    memberText "prev_chain" sampleDigest, memberText "chain" sampleDigest,
    memberText "recovery_epoch" ['1'],
    memberText "expired" (if expiredBy = "null".toList then "false".toList else "true".toList),
    memberText "expired_by_seq" expiredBy, memberText "envelope" envelope]

def samplePurge : Json.Text :=
  objectText [memberText "id" (sampleId '2'), memberText "type" (quoted bodyPurged.toList),
    memberText "source" (quoted auditStoreSource.toList),
    memberText "data" (objectText [memberText "details" (objectText
      [memberText "target_seq" ['1'], memberText "target_event_id" (sampleId '1')])])]

def sampleExport : Json.Text :=
  sampleRow '1' "relay" ['2'] "null".toList ++ '\n' ::
    sampleRow '2' "store" "null".toList samplePurge

def sampleEnv : Env := ⟨fun _ => genesis, fun _ => none, ⟨[]⟩⟩

def sampleReport : ExportReport where
  anchored := true
  anchor := some .genesis
  head := ⟨1, 2, genesis⟩
  rows := 2
  bodies := 1
  expired := 1
  unverifiedExpiryEvidence := 0
  unverifiedRestoredHeads := 0
  epochsAuthenticated := true
  chains := [genesis, genesis]
  transitions := []
  expiries := [⟨1, 2, true⟩]

theorem verifyExport_sample :
    verifyExport sampleEnv sampleExport .genesis = .ok sampleReport := by
  decide +kernel

end KnowledgePlatform.Audit
