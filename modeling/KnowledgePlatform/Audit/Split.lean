import KnowledgePlatform.Audit.Report

/-! An accepted body export can be cut at any row: both parts verify, the second from the
checkpoint at the cut. -/

namespace KnowledgePlatform.Audit

open List
open Json (Text)

variable {env : Env} {a : Checkpoint} {x y : List Line}

/-! ## The path -/

variable {p : Checkpoint}

theorem mem_positions_append (h : p ∈ positions (headOf a x) y) :
    p ∈ positions a (x ++ y) := by
  rcases mem_positions.mp h with rfl | ⟨line, hline, rfl⟩
  · rcases mem_positions.mp (headOf_mem a x) with same | ⟨line, hline, same⟩
    · rw [same]
      exact mem_cons_self
    · exact mem_positions.mpr (.inr ⟨line, mem_append_left _ hline, same⟩)
  · exact mem_positions.mpr (.inr ⟨line, mem_append_right _ hline, rfl⟩)

/-- Re-anchored at the cut, a row still continues its path: the chain values it may be compared
with are among those known before. -/
theorem Next.reanchor {line : Line} (path : Path env a (x ++ y)) (tail : Path env (headOf a x) y)
    (pos : ∀ line ∈ x ++ y, 1 ≤ line.seq) (next : Next env a (x ++ y) line) :
    Next env (headOf a x) y line := by
  have head := headOf_append (a := a) x y
  refine ⟨head ▸ next.seq, head ▸ next.link, next.hash, next.expiry, next.stored, ?_⟩
  rcases next.epoch with ⟨stay, plain⟩ | ⟨step, attestation, attested⟩
  · exact .inl ⟨head ▸ stay, plain⟩
  · refine .inr ⟨head ▸ step, attestation, ?_⟩
    rw [← head]
    unfold attestTransition at attested ⊢
    split at attested
    · cases attested
    · split at attested
      · split_ifs at attested with checks
        obtain ⟨h1, h2, h3, h4, h5, h6, h7, h8, same⟩ := checks
        rw [← attested]
        refine if_pos ⟨h1, h2, h3, h4, h5, h6, h7, h8, fun chain known => same chain ?_⟩
        have old := (tail.chainAt_iff (fun l hl => pos l (mem_append_right _ hl)) rfl rfl).mp known
        obtain ⟨p, hp, facts⟩ := old
        exact (path.chainAt_iff pos rfl rfl).mpr ⟨p, mem_positions_append hp, facts⟩
      · cases attested

theorem Path.tail (path : Path env a (x ++ y)) (pos : ∀ line ∈ x ++ y, 1 ≤ line.seq) :
    Path env (headOf a x) y := by
  induction y using reverseRecOn with
  | nil => trivial
  | append_singleton y line ih =>
    rw [← append_assoc] at path pos
    have initial := ih path.initial fun l hl => pos l (mem_append_left _ hl)
    refine follows_append.mpr ⟨initial, ?_, trivial⟩
    exact path.next.reanchor path.initial initial fun l hl => pos l (mem_append_left _ hl)

/-! ## Expiries -/

section

variable (path : Path env a (x ++ y))

include path

variable {line : Line}

theorem Path.cut_lt (hl : line ∈ y) : (headOf a x).seq < line.seq := by
  obtain ⟨z, w, rfl⟩ := append_of_mem hl
  have lineSeq := Path.seq_eq (x := x ++ z) (by rwa [append_assoc])
  rw [path.initial.headOf_seq, lineSeq, length_append]
  push_cast
  omega

theorem Path.mem_left (hl : line ∈ x ++ y) (before : line.seq ≤ (headOf a x).seq) :
    line ∈ x := by
  rcases mem_append.mp hl with left | right
  · exact left
  · have := path.cut_lt right
    omega

theorem Path.mem_right (hl : line ∈ x ++ y) (after : (headOf a x).seq < line.seq) :
    line ∈ y := by
  rcases mem_append.mp hl with left | right
  · have := path.initial.le_head left
    omega
  · exact right

/-- Evidence up to the cut speaks of rows before the cut only. -/
theorem Path.expiredKeys_left {e : Int} (before : e ≤ (headOf a x).seq) :
    expiredKeys (x ++ y) e = expiredKeys x e := by
  have none : expiredKeys y e = [] := by
    apply eq_nil_iff_forall_not_mem.mpr
    intro key hkey
    obtain ⟨line, hline, expired, -⟩ := mem_expiredKeys.mp hkey
    obtain ⟨_, next⟩ := path.next_of_mem (mem_append_right _ hline)
    have := (next.expiry e expired).2.1
    have := path.cut_lt hline
    omega
  rw [expiredKeys_append, none, append_nil]

theorem Path.settled_left {sha256 : Hash}
    (h : Settled sha256 a.seq (headOf a (x ++ y)).seq (x ++ y)) :
    Settled sha256 a.seq (headOf a x).seq x where
  found := by
    intro line hline e expired within
    have cut : (headOf a x).seq ≤ (headOf a (x ++ y)).seq := by
      rw [path.headOf_seq, path.initial.headOf_seq, length_append]
      push_cast
      omega
    obtain ⟨row, hrow, seq, carried⟩ :=
      h.found line (mem_append_left _ hline) e expired (by omega)
    exact ⟨row, path.mem_left hrow (by omega), seq, carried⟩
  fits := by
    intro row hrow evidence carried
    rw [← path.expiredKeys_left (path.initial.le_head hrow)]
    exact h.fits row (mem_append_left _ hrow) evidence carried

end

theorem sorted_ends {l : List Int} (sorted : l.Pairwise (· < ·)) {n : Int} (hn : n ∈ l) :
    (∃ f ∈ l.head?, f ≤ n) ∧ ∃ z ∈ l.getLast?, n ≤ z := by
  refine ⟨?_, ?_⟩
  · cases l with
    | nil => cases hn
    | cons f =>
      refine ⟨f, rfl, ?_⟩
      rcases mem_cons.mp hn with rfl | later
      · exact Int.le_refl _
      · exact Int.le_of_lt ((pairwise_cons.mp sorted).1 n later)
  · cases l using reverseRecOn with
    | nil => cases hn
    | append_singleton l z =>
      refine ⟨z, by simp, ?_⟩
      rcases mem_append.mp hn with earlier | last
      · exact Int.le_of_lt ((pairwise_append.mp sorted).2.2 n earlier z (by simp))
      · exact Int.le_of_eq (mem_singleton.mp last)

/-- Evidence that fits rows on both sides of a cut fits those after it, seen from the cut. -/
theorem Evidence.Matches.tail {sha256 : Hash} {anchorSeq cut : Int} {kx ky : List (Int × Uuid)}
    {evidence : Evidence} (h : evidence.Matches sha256 anchorSeq (kx ++ ky))
    (sorted : (kx ++ ky).Pairwise fun k l => k.1 < l.1) (before : ∀ k ∈ kx, k.1 ≤ cut)
    (after : ∀ k ∈ ky, cut < k.1) (anchored : anchorSeq ≤ cut) :
    evidence.Matches sha256 cut ky := by
  match evidence with
  | .epochStarted .. => trivial
  | .retention (some count) (some first) (some last) (some digest) =>
    have left : (ky.map Prod.fst).Sublist ((kx ++ ky).map Prod.fst) :=
      (sublist_append_right _ _).map _
    have fewer := left.length_le
    simp only [Evidence.Matches] at h ⊢
    by_cases early : ∃ f ∈ first, f ≤ anchorSeq
    · -- the set already began before the old anchor
      rw [if_pos early] at h
      obtain ⟨f, hf, below⟩ := early
      rw [if_pos ⟨f, hf, Int.le_trans below anchored⟩]
      simp only [ExpiryLedger.fits, decide_eq_true_eq] at h ⊢
      exact ⟨h.1, by omega, fun seq hseq => h.2.2 seq (left.subset hseq)⟩
    · rw [if_neg early] at h
      obtain ⟨nonneg, count, hfirst, hlast, hdigest⟩ := h
      by_cases crossing : ∃ f ∈ first, f ≤ cut
      · -- the set begins before the cut: what is left fits between its ends
        rw [if_pos crossing]
        simp only [ExpiryLedger.fits, decide_eq_true_eq]
        refine ⟨nonneg, by omega, ?_⟩
        intro seq hseq
        rw [hfirst, hlast]
        exact sorted_ends (pairwise_map.mpr sorted) (left.subset hseq)
      · have none : kx = [] := by
          cases kx with
          | nil => rfl
          | cons k =>
            exact absurd ⟨k.1, hfirst, before k mem_cons_self⟩ crossing
        rw [if_neg crossing]
        rw [none, nil_append] at count hfirst hlast hdigest
        exact ⟨nonneg, count, hfirst, hlast, hdigest⟩
  | .purge (some target) id =>
    simp only [Evidence.Matches] at h ⊢
    by_cases early : target ≤ anchorSeq
    · rw [if_pos early] at h
      rw [if_pos (Int.le_trans early anchored)]
      exact (append_eq_nil_iff.mp h).2
    · rw [if_neg early] at h
      obtain ⟨eventId, hid, only⟩ := h
      -- the one row is on either side of the cut
      obtain ⟨-, only⟩ | ⟨only, none⟩ := append_eq_singleton_iff.mp only
      · have later := after (target, eventId) (by simp [only])
        rw [if_neg (Int.not_le.mpr later)]
        exact ⟨eventId, hid, only⟩
      · rw [if_pos (before (target, eventId) (by simp [only]))]
        exact none

theorem Path.settled_right {sha256 : Hash} (path : Path env a (x ++ y))
    (h : Settled sha256 a.seq (headOf a (x ++ y)).seq (x ++ y)) :
    Settled sha256 (headOf a x).seq (headOf a (x ++ y)).seq y where
  found := by
    intro line hline e expired within
    obtain ⟨row, hrow, seq, carried⟩ :=
      h.found line (mem_append_right _ hline) e expired within
    obtain ⟨_, next⟩ := path.next_of_mem (mem_append_right _ hline)
    have := (next.expiry e expired).2.1
    have := path.cut_lt hline
    exact ⟨row, path.mem_right hrow (by omega), seq, carried⟩
  fits := by
    intro row hrow evidence carried
    have whole := h.fits row (mem_append_right _ hrow) evidence carried
    have sorted := expiredKeys_sorted path.sorted row.seq
    rw [expiredKeys_append] at whole sorted
    refine whole.tail sorted (fun key hkey => ?_) (fun key hkey => ?_)
      (by rw [path.initial.headOf_seq]; omega)
    all_goals obtain ⟨line, hline, -, rfl⟩ := mem_expiredKeys.mp hkey
    · exact path.initial.le_head hline
    · exact path.cut_lt hline

/-! ## The reports -/

section

variable (path : Path env a (x ++ y))

include path

theorem Path.transitions_apart : (∀ t ∈ transitionsFrom a.epoch x, t.seq ≤ (headOf a x).seq) ∧
    ∀ t ∈ transitionsFrom (headOf a x).epoch y, (headOf a x).seq < t.seq := by
  constructor <;> intro t ht <;> obtain ⟨line, hline, seq, -⟩ := mem_transitionsFrom ht
  · have := path.initial.le_head hline
    omega
  · have := path.cut_lt hline
    omega

theorem Path.transitions_left :
    (transitionsFrom a.epoch (x ++ y)).filter (fun t => t.seq ≤ (headOf a x).seq) =
      transitionsFrom a.epoch x := by
  obtain ⟨first, second⟩ := path.transitions_apart
  rw [transitionsFrom_path, filter_append, filter_eq_self.mpr (by simpa using first),
    filter_eq_nil_iff.mpr (by simpa using second), append_nil]

theorem Path.transitions_right :
    (transitionsFrom a.epoch (x ++ y)).filter (fun t => (headOf a x).seq < t.seq) =
      transitionsFrom (headOf a x).epoch y := by
  obtain ⟨first, second⟩ := path.transitions_apart
  rw [transitionsFrom_path, filter_append, filter_eq_nil_iff.mpr (by simpa using first),
    filter_eq_self.mpr (by simpa using second), nil_append]

theorem Path.confirmedAt_left {anchorSeq e : Int} (before : e ≤ (headOf a x).seq) :
    confirmedAt anchorSeq (x ++ y) e = confirmedAt anchorSeq x e := by
  have later : confirmedAt anchorSeq y e = false :=
    confirmedAt_missing fun _ hline => (before.trans_lt (path.cut_lt hline)).ne'
  unfold confirmedAt at later ⊢
  rw [any_append, later, Bool.or_false]

/-- Cutting an export leaves each expiry before the cut as it was, unless its evidence comes after
the cut: then it is unverified. -/
theorem Path.expiries_left :
    expiriesOf a.seq x =
      ((expiriesOf a.seq (x ++ y)).filter fun row => row.seq ≤ (headOf a x).seq).map fun row =>
        if row.evidenceSeq ≤ (headOf a x).seq then row else { row with verified := false } := by
  have kept : (expiriesOf a.seq (x ++ y)).filter (fun row => row.seq ≤ (headOf a x).seq) =
      x.filterMap (Line.expiry a.seq (x ++ y)) := by
    have reported {l : List Line} {row : ExpiredRowEvidence}
        (h : row ∈ l.filterMap (Line.expiry a.seq (x ++ y))) : ∃ line ∈ l, line.seq = row.seq := by
      obtain ⟨line, hline, reported⟩ := mem_filterMap.mp h
      obtain ⟨e, -, rfl⟩ := Option.map_eq_some_iff.mp reported
      exact ⟨line, hline, rfl⟩
    rw [expiriesOf, filterMap_append, filter_append, filter_eq_self.mpr,
      filter_eq_nil_iff.mpr, append_nil]
    · intro row hrow
      obtain ⟨line, hline, seq⟩ := reported hrow
      have := path.cut_lt hline
      simp only [decide_eq_true_eq]
      omega
    · intro row hrow
      obtain ⟨line, hline, seq⟩ := reported hrow
      rw [← seq]
      exact decide_eq_true (path.initial.le_head hline)
  rw [kept, map_filterMap]
  apply filterMap_congr
  intro line hline
  unfold Line.expiry
  cases line.expiredBySeq with
  | none => rfl
  | some e =>
    simp only [Option.map_some]
    by_cases before : e ≤ (headOf a x).seq
    · rw [if_pos before, path.confirmedAt_left before]
    · rw [if_neg before, confirmedAt_past (fun l hl => path.initial.le_head hl)
        (Int.not_le.mp before)]

end

theorem mem_positions_left (path : Path env a (x ++ y)) (before : p.seq ≤ (headOf a x).seq) :
    p ∈ positions a (x ++ y) ↔ p ∈ positions a x := by
  rw [mem_positions, mem_positions]
  constructor
  · rintro (rfl | ⟨line, hline, rfl⟩)
    · exact .inl rfl
    · exact .inr ⟨line, path.mem_left hline before, rfl⟩
  · rintro (rfl | ⟨line, hline, rfl⟩)
    · exact .inl rfl
    · exact .inr ⟨line, mem_append_left _ hline, rfl⟩

theorem mem_positions_right (path : Path env a (x ++ y)) (after : (headOf a x).seq < p.seq) :
    p ∈ positions a (x ++ y) ↔ p ∈ positions (headOf a x) y := by
  refine ⟨?_, mem_positions_append⟩
  intro hp
  rcases mem_positions.mp hp with rfl | ⟨line, hline, rfl⟩
  · have := path.initial.headOf_seq
    omega
  · exact mem_positions.mpr (.inr ⟨line, path.mem_right hline after, rfl⟩)

section

variable (path : Path env a (x ++ y)) (pos : ∀ line ∈ x ++ y, 1 ≤ line.seq)

include path pos

variable {seq : Int}

theorem Path.chainAt_left (before : seq ≤ (headOf a x).seq) :
    (exportReport a x).chainAt seq = (exportReport a (x ++ y)).chainAt seq := by
  apply Option.ext
  intro chain
  rw [path.initial.chainAt_iff (fun l hl => pos l (mem_append_left _ hl)) rfl rfl,
    path.chainAt_iff pos rfl rfl]
  exact exists_congr fun p => and_congr_left fun facts =>
    (mem_positions_left path (facts.1 ▸ before)).symm

omit pos in
theorem Path.epochAt_left (before : seq ≤ (headOf a x).seq) :
    (exportReport a x).epochAt seq = (exportReport a (x ++ y)).epochAt seq := by
  apply Option.ext
  intro epoch
  rw [path.initial.epochAt_iff rfl rfl rfl, path.epochAt_iff rfl rfl rfl]
  exact exists_congr fun p => and_congr_left fun facts =>
    (mem_positions_left path (facts.1 ▸ before)).symm

end

theorem Reads.take {text first : Text} {k : Nat} (h : Reads env text lines)
    (hfirst : splitLines first = (splitLines text).take k) : Reads env first (lines.take k) := by
  unfold Reads at h ⊢
  rw [hfirst, map_take, h, map_take]

theorem Reads.drop {text rest : Text} {k : Nat} (h : Reads env text lines)
    (hrest : splitLines rest = (splitLines text).drop k) : Reads env rest (lines.drop k) := by
  unfold Reads at h ⊢
  rw [hrest, map_drop, h, map_drop]

/-- **Split closure.** Cut an accepted body export after any inner row. The first part verifies
from the same anchor with the same chain, epoch and transitions; expiries whose evidence lies after
the cut become unverified and nothing else about them changes. The rest verifies from the
checkpoint at the cut, with the same head, the same chain values and the later transitions. -/
theorem export_split (env : Env) (start : Anchor) (text first rest : Text) (k : Nat)
    (r : ExportReport) (h : verifyExport env text start = .ok r) (inner : 0 < k ∧ k < r.rows)
    (hfirst : splitLines first = (splitLines text).take k)
    (hrest : splitLines rest = (splitLines text).drop k) :
    ∃ cut : Checkpoint, cut.seq = start.position.seq + k ∧
      r.epochAt cut.seq = some cut.epoch ∧ r.chainAt cut.seq = some cut.chain ∧
      (∃ p, verifyExport env first start = .ok p ∧ p.rows = k ∧ p.head = cut ∧
        (∀ seq ≤ cut.seq, p.chainAt seq = r.chainAt seq ∧ p.epochAt seq = r.epochAt seq) ∧
        p.transitions = r.transitions.filter (fun t => t.seq ≤ cut.seq) ∧
        p.expiries = (r.expiries.filter fun row => row.seq ≤ cut.seq).map fun row =>
          if row.evidenceSeq ≤ cut.seq then row else { row with verified := false }) ∧
      ∃ q, verifyExport env rest (.checkpoint cut) = .ok q ∧ q.head = r.head ∧
        (∀ seq, cut.seq < seq → q.chainAt seq = r.chainAt seq) ∧
        q.transitions = r.transitions.filter (fun t => cut.seq < t.seq) := by
  obtain ⟨lines, reads, accepted, rfl⟩ := verifyExport_iff.mp h
  have pos : ∀ line ∈ lines, 1 ≤ line.seq := fun line hline => (reads.pos line hline).1
  have within : k ≤ lines.length := Nat.le_of_lt inner.2
  have readsFirst := reads.take hfirst
  have readsRest := reads.drop hrest
  obtain ⟨x, y, rfl, rfl⟩ : ∃ x y, lines = x ++ y ∧ x.length = k :=
    ⟨lines.take k, lines.drop k, (take_append_drop k lines).symm,
      length_take_of_le within⟩
  rw [take_left] at readsFirst
  rw [drop_left] at readsRest
  have path := accepted.path
  have head : headOf start.position (x ++ y) = headOf (headOf start.position x) y :=
    headOf_append x y
  have cutSeq : (headOf start.position x).seq = start.position.seq + x.length :=
    path.initial.headOf_seq
  have atCut : headOf start.position x ∈ positions start.position (x ++ y) :=
    (mem_positions_left path (Int.le_refl _)).mpr (headOf_mem _ _)
  refine ⟨headOf start.position x, cutSeq, ?_, ?_, ?_, ?_⟩
  · exact (path.epochAt_iff rfl rfl rfl).mpr ⟨_, atCut, rfl, rfl⟩
  · exact (path.chainAt_iff pos rfl rfl).mpr ⟨_, atCut, rfl, rfl⟩
  · refine ⟨exportReport start.position x, ?_, rfl, rfl, ?_, path.transitions_left.symm,
      path.expiries_left⟩
    · exact verifyExport_iff.mpr
        ⟨x, readsFirst, ⟨path.initial, path.settled_left accepted.settled⟩, rfl⟩
    · intro seq before
      exact ⟨path.chainAt_left pos before, path.epochAt_left before⟩
  · refine ⟨exportReport (headOf start.position x) y, ?_, head.symm, ?_,
      path.transitions_right.symm⟩
    · refine verifyExport_iff.mpr ⟨y, readsRest, ⟨path.tail pos, ?_⟩, rfl⟩
      have settled := path.settled_right accepted.settled
      rw [head] at settled
      exact settled
    · intro seq after
      apply Option.ext
      intro chain
      rw [(path.tail pos).chainAt_iff (fun l hl => pos l (mem_append_right _ hl)) rfl rfl,
        path.chainAt_iff pos rfl rfl]
      constructor
      · rintro ⟨p, hp, rfl, facts⟩
        exact ⟨p, mem_positions_append hp, rfl, facts⟩
      · rintro ⟨p, hp, rfl, facts⟩
        exact ⟨p, (mem_positions_right path after).mp hp, rfl, facts⟩

/-- The sample export cut between the expired row and the row that attests its expiry. -/
theorem export_split_sample :
    ∃ cut : Checkpoint, cut.seq = Anchor.genesis.position.seq + (1 : Nat) ∧
      sampleReport.epochAt cut.seq = some cut.epoch ∧
      sampleReport.chainAt cut.seq = some cut.chain ∧
      (∃ p, verifyExport sampleEnv (sampleRow '1' "relay" ['2'] "null".toList) .genesis = .ok p ∧
        p.rows = 1 ∧ p.head = cut ∧
        (∀ seq ≤ cut.seq, p.chainAt seq = sampleReport.chainAt seq ∧
          p.epochAt seq = sampleReport.epochAt seq) ∧
        p.transitions = sampleReport.transitions.filter (fun t => t.seq ≤ cut.seq) ∧
        p.expiries = (sampleReport.expiries.filter fun row => row.seq ≤ cut.seq).map fun row =>
          if row.evidenceSeq ≤ cut.seq then row else { row with verified := false }) ∧
      ∃ q, verifyExport sampleEnv (sampleRow '2' "store" "null".toList samplePurge)
          (.checkpoint cut) = .ok q ∧ q.head = sampleReport.head ∧
        (∀ seq, cut.seq < seq → q.chainAt seq = sampleReport.chainAt seq) ∧
        q.transitions = sampleReport.transitions.filter (fun t => cut.seq < t.seq) :=
  export_split sampleEnv .genesis sampleExport (sampleRow '1' "relay" ['2'] "null".toList)
    (sampleRow '2' "store" "null".toList samplePurge) 1 sampleReport verifyExport_sample
    (by decide) (by set_option maxRecDepth 4000 in decide)
    (by set_option maxRecDepth 4000 in decide)

end KnowledgePlatform.Audit
