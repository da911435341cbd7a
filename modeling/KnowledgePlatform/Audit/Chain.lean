import KnowledgePlatform.Json.Parse
import KnowledgePlatform.Lib.Framing
import Mathlib.Data.List.Sort

/-! The write-time hash chain, for any function from byte strings to digests, and the admission of
JSON texts. -/

namespace KnowledgePlatform.Audit

open List

/-- The ASCII text `kp-audit-chain-v1`. -/
def chainDomain : Bytes := utf8 "kp-audit-chain-v1".toList

def expiredSetDomain : Bytes := utf8 "kp-audit-expired-set-v1".toList

/-- `prev_chain` of seq 1. -/
def genesis : Digest :=
  ⟨[0x9a, 0xe4, 0xe1, 0xd7, 0x94, 0x2c, 0xe3, 0x18, 0x77, 0x0d, 0xe8, 0x97, 0xb2, 0xa3, 0x36, 0xed,
    0xc2, 0xa9, 0xe7, 0x00, 0xf8, 0x73, 0x3f, 0x65, 0x8d, 0xcd, 0xc2, 0xe5, 0x63, 0xaf, 0xf3, 0x44],
    rfl⟩

abbrev Hash := Bytes → Digest

def chainPreimage (prev : Digest) (seq : Int) (eventId : Uuid) (digest : Digest) : Bytes :=
  chainDomain ++ prev.bytes ++ int8be seq ++ eventId.bytes ++ digest.bytes

/-- Seqs are hashed in ascending order, whatever order they are given in. -/
def expiredSetPreimage (seqs : List Int) : Bytes :=
  expiredSetDomain ++ (seqs.insertionSort (· ≤ ·)).flatMap int8be

section

variable (sha256 : Hash)

def envelopeDigest (text : List Char) : Digest := sha256 (utf8 text)

def chainNext (prev : Digest) (seq : Int) (eventId : Uuid) (digest : Digest) : Digest :=
  sha256 (chainPreimage prev seq eventId digest)

def expiredSetDigest (seqs : List Int) : Digest := sha256 (expiredSetPreimage seqs)

end

theorem chainPreimage_inj {p q : Digest} {m n : Int} {a b : Uuid} {d e : Digest}
    (hm : InInt64 m) (hn : InInt64 n) (h : chainPreimage p m a d = chainPreimage q n b e) :
    p = q ∧ m = n ∧ a = b ∧ d = e := by
  obtain ⟨h, digests⟩ := append_inj' h (by rw [d.size, e.size])
  obtain ⟨h, ids⟩ := append_inj' h (by rw [a.size, b.size])
  obtain ⟨h, seqs⟩ := append_inj' h (by simp)
  obtain ⟨-, prevs⟩ := append_inj' h (by rw [p.size, q.size])
  exact ⟨Digest.ext_bytes prevs, int8be_inj hm hn seqs, Uuid.ext_bytes ids,
    Digest.ext_bytes digests⟩

theorem flatMap_int8be_inj {l m : List Int} (hl : ∀ n ∈ l, InInt64 n) (hm : ∀ n ∈ m, InInt64 n)
    (h : l.flatMap int8be = m.flatMap int8be) : l = m := by
  have blocks : l.map int8be = m.map int8be := by
    refine Framing.blocks_inj (fun x y s t same => (append_inj same (by simp)).1) ?_ h
    intro n none
    simpa using congrArg length none
  rw [← forall₂_eq_eq_eq]
  exact forall₂_of_map_eq (fun x hx y hy => int8be_inj (hl x hx) (hm y hy)) blocks

/-- The hashed text determines the set of seqs. -/
theorem expiredSetPreimage_inj {l m : List Int} (hl : ∀ n ∈ l, InInt64 n)
    (hm : ∀ n ∈ m, InInt64 n) (h : expiredSetPreimage l = expiredSetPreimage m) :
    ∀ n, n ∈ l ↔ n ∈ m := by
  have sorted := flatMap_int8be_inj (fun n hn => hl n ((mem_insertionSort _).mp hn))
    (fun n hn => hm n ((mem_insertionSort _).mp hn)) (append_cancel_left h)
  intro n
  rw [← mem_insertionSort (· ≤ ·), sorted, mem_insertionSort]

/-! ## Bounded JSON admission -/

inductive RejectionCode where
  | envelopeTooLarge
  | invalidJson
  | duplicateKey

def maxJsonBytes : Nat := 64 * 1024
def maxJsonDepth : Nat := 8

/-- The reader's own nesting limit: `serde_json` refuses the 128th open container. -/
def readerDepth : Nat := 127

/-- Parses one value; `float` reads number literals that are not integers in range. -/
def parseBounded (float : Json.Text → Option String) (text : Json.Text)
    (maxBytes maxDepth : Nat) : Except RejectionCode Json :=
  if maxBytes < (utf8 text).length then .error .envelopeTooLarge
  else
    match Json.document float (min maxDepth readerDepth) text with
    | .ok v => .ok v
    | .error .duplicate => .error .duplicateKey
    | .error .invalid => .error .invalidJson

def parseUnique (float : Json.Text → Option String) (text : Json.Text) :
    Except RejectionCode Json :=
  parseBounded float text maxJsonBytes maxJsonDepth

variable {float : Json.Text → Option String} {text : Json.Text} {v : Json}

theorem parseBounded_document {maxBytes maxDepth : Nat} :
    parseBounded float text maxBytes maxDepth = .ok v ↔
      (utf8 text).length ≤ maxBytes ∧
        Json.document float (min maxDepth readerDepth) text = .ok v := by
  unfold parseBounded
  rw [ite_error_iff, Nat.not_lt]
  refine and_congr_right fun _ => ?_
  split <;> simp_all

/-- **Admission.** What is accepted is one JSON document of at most `maxBytes` bytes, with no more
nested containers than both bounds allow and no object that names a member twice; it is read as
the value it spells. -/
theorem parseBounded_iff (float : Json.Text → Option String) (text : Json.Text)
    (maxBytes maxDepth : Nat) (v : Json) :
    parseBounded float text maxBytes maxDepth = .ok v ↔
      (utf8 text).length ≤ maxBytes ∧ ∃ w t w', Json.IsWs w ∧
        Json.Spells float (min maxDepth readerDepth) v t ∧ Json.IsWs w' ∧ text = w ++ t ++ w' := by
  rw [parseBounded_document]
  refine and_congr_right fun _ => ⟨Json.document_sound, ?_⟩
  rintro ⟨w, t, w', before, spells, after, rfl⟩
  exact Json.document_complete before spells after

end KnowledgePlatform.Audit
