import KnowledgePlatform.Lib.Reader
import KnowledgePlatform.Outbox.Delivery

/-! The delay before the next attempt: exponential seconds and a jitter taken from a digest, which
the settlement of a failure then checks against the policy. -/

namespace KnowledgePlatform.Outbox

def u64Max : Nat := 2 ^ 64 - 1

/-- The result of an operation on `u64`, if it fits. -/
def u64 (n : Nat) : Option Nat := if n ≤ u64Max then some n else none

/-- One step of the remainder of a big-endian number. -/
def reduceByte (modulus jitterMs : Nat) (byte : UInt8) : Option Nat := do
  let shifted ← u64 (jitterMs * 256)
  let next ← u64 (shifted + byte.toNat)
  return next % modulus

/-- Five minutes. -/
def capMs : Nat := 300000

/-- A second, doubled with each further attempt. -/
def baseMs (attempt : Nat) : Nat := 1000 <<< (attempt - 1)

/-- What the jitter is taken from. -/
def digest (sha256 : Bytes → Digest) (eventId : Uuid) (attempt : Nat) : Bytes :=
  (sha256 (eventId.bytes ++ bigEndian 4 attempt)).bytes

/-- The digest as a number, modulo `modulus`. -/
def jitterMs (modulus : Nat) (digest : Bytes) : Option Nat := digest.foldlM (reduceByte modulus) 0

def clamp (n low high : Nat) : Nat := if n < low then low else if high < n then high else n

/-- The delay after an attempt; late attempts wait the longest. -/
def retryDelay (sha256 : Bytes → Digest) (eventId : Uuid) (attempt : Int) : Option Duration := do
  let attempt := (max attempt 1).toNat
  if 10 ≤ attempt then
    return .fromMillis capMs
  let modulus := baseMs attempt / 4 + 1
  let jitter ← jitterMs modulus (digest sha256 eventId attempt)
  return .fromMillis (clamp (min (baseMs attempt + jitter) u64Max) 1000 capMs)

/-- The delay within the bounds of a policy. -/
def retryDelayWithin (sha256 : Bytes → Digest) (eventId : Uuid) (attempt : Int)
    (bounds : Duration × Duration) : Option Duration := do
  let delay ← retryDelay sha256 eventId attempt
  return clamp delay bounds.1 (max bounds.2 bounds.1)

/-- A negative bound reads as zero. -/
def DeliveryPolicy.backoffBounds (p : DeliveryPolicy) : Duration × Duration :=
  (.fromMillis p.backoffMinMs.toNat, .fromMillis p.backoffMaxMs.toNat)

theorem clamp_eq (n : Nat) {low high : Nat} (h : low ≤ high) :
    clamp n low high = max low (min n high) := by
  rw [clamp]
  split_ifs <;> omega

/-! ## The jitter -/

theorem reduceByte_mod {modulus : Nat} (n : Nat) (byte : UInt8) (pos : 0 < modulus)
    (small : modulus ≤ 64001) :
    reduceByte modulus (n % modulus) byte = some ((256 * n + byte.toNat) % modulus) := by
  have fits : ∀ r < modulus, r * 256 + byte.toNat ≤ u64Max := by
    intro r below
    have := byte.toNat_lt
    have roomy : 16400000 ≤ u64Max := by decide
    omega
  have add := fits _ (Nat.mod_lt n pos)
  have shift := Nat.le_of_add_right_le add
  simp only [reduceByte, u64, if_pos shift, if_pos add, Option.bind_eq_bind, Option.bind_some,
    Option.pure_def, Option.some.injEq]
  rw [Nat.mul_comm, Nat.add_mod, Nat.mul_mod, Nat.mod_mod, ← Nat.mul_mod, ← Nat.add_mod]

theorem jitterMs_eq {modulus : Nat} (bytes : Bytes) (pos : 0 < modulus)
    (small : modulus ≤ 64001) : jitterMs modulus bytes = some (ofBigEndian bytes % modulus) := by
  -- the accumulator is the number read so far, reduced
  have from_mod (n : Nat) : bytes.foldlM (reduceByte modulus) (n % modulus) =
      some (bytes.foldl (fun n byte => 256 * n + byte.toNat) n % modulus) := by
    induction bytes generalizing n with
    | nil => rfl
    | cons byte rest ih => simp [List.foldlM_cons, reduceByte_mod n byte pos small, ih]
  have start := from_mod 0
  rwa [Nat.zero_mod] at start

/-! ## The schedule -/

theorem baseMs_early {attempt : Nat} (early : attempt < 10) : baseMs attempt ≤ 256000 := by
  have : ∀ a < 10, baseMs a ≤ 256000 := by decide
  exact this attempt early

theorem baseMs_ge (attempt : Nat) : 1000 ≤ baseMs attempt := by
  rw [baseMs, Nat.shiftLeft_eq]
  exact Nat.le_mul_of_pos_right _ (Nat.two_pow_pos _)

theorem baseMs_doubles {a b : Nat} (first : 1 ≤ a) (later : a < b) :
    2 * baseMs a ≤ baseMs b := by
  have : 2 ^ (a - 1 + 1) ≤ 2 ^ (b - 1) := Nat.pow_le_pow_right (by decide) (by omega)
  simp only [baseMs, Nat.shiftLeft_eq]
  omega

variable (sha256 : Bytes → Digest) (eventId : Uuid)

/-- Each delay keeps to a band of its own, and the bands of later attempts lie above. -/
theorem retryDelay_band (attempt : Int) : ∃ ms,
    retryDelay sha256 eventId attempt = some (.fromMillis ms) ∧
      min (baseMs (max attempt 1).toNat) capMs ≤ ms ∧
      ms ≤ min (baseMs (max attempt 1).toNat * 5 / 4) capMs := by
  obtain ⟨a, ha⟩ : ∃ a, (max attempt 1).toNat = a := ⟨_, rfl⟩
  have least := baseMs_ge a
  simp only [retryDelay, ha]
  by_cases late : 10 ≤ a
  · have := baseMs_doubles (a := 9) (by decide) late
    have nine : baseMs 9 = 256000 := by decide
    refine ⟨capMs, by rw [if_pos late]; rfl, ?_⟩
    simp only [capMs]
    omega
  · have early := baseMs_early (not_le.mp late)
    have below := Nat.mod_lt (ofBigEndian (digest sha256 eventId a)) (y := baseMs a / 4 + 1)
      (by omega)
    refine ⟨_, by rw [if_neg late, jitterMs_eq _ (by omega) (by omega)]; rfl, ?_⟩
    have roomy : capMs ≤ u64Max := by decide
    rw [clamp_eq _ (by decide)]
    simp only [capMs] at roomy ⊢
    omega

theorem retryDelay_mono {a b : Int} {d e : Duration} (later : a ≤ b)
    (first : retryDelay sha256 eventId a = some d) (second : retryDelay sha256 eventId b = some e) :
    d ≤ e := by
  obtain ⟨x, hx, -, below⟩ := retryDelay_band sha256 eventId a
  obtain ⟨y, hy, above, -⟩ := retryDelay_band sha256 eventId b
  by_cases same : max a 1 = max b 1
  · simp only [retryDelay, same] at first second
    exact (Option.some.inj (first.symm.trans second)).le
  · have := baseMs_doubles (a := (max a 1).toNat) (b := (max b 1).toNat) (by omega) (by omega)
    cases first.symm.trans hx
    cases second.symm.trans hy
    exact Nat.mul_le_mul_right _ (by omega)

theorem retryDelayWithin_bounded {p : DeliveryPolicy} (valid : p.Valid) (attempt : Int) :
    ∃ ms : Nat,
    retryDelayWithin sha256 eventId attempt p.backoffBounds = some (.fromMillis ms) ∧
      p.backoffMinMs ≤ ms ∧ ms ≤ p.backoffMaxMs := by
  obtain ⟨ms, delay, -⟩ := retryDelay_band sha256 eventId attempt
  obtain ⟨-, -, -, -, ⟨low, -⟩, order, -⟩ := valid
  refine ⟨max p.backoffMinMs.toNat (min ms p.backoffMaxMs.toNat), ?_, by omega, by omega⟩
  simp only [retryDelayWithin, delay, DeliveryPolicy.backoffBounds, Duration.fromMillis,
    Option.bind_eq_bind, Option.bind_some, Option.pure_def, clamp_eq _ (le_max_right _ _),
    Option.some.injEq]
  omega

theorem boundedMillis_whole {low high : Int} {ms : Nat} (fits : InInt64 ms) (above : low ≤ ms)
    (below : ms ≤ high) :
    DeliveryPolicy.boundedMillis low high (.fromMillis ms) = .ok (ms : Int) := by
  have whole : (Duration.fromMillis ms).asMillis = ms := by
    simp [Duration.fromMillis, Duration.asMillis]
  simp [DeliveryPolicy.boundedMillis, whole, fits, above, below, ensure]
  rfl

/-- The delays grow with the attempt between one second and five minutes, the jitter is the digest
modulo its range, and a store takes every delay the runner computes within its own policy. -/
theorem retryDelay_grows_and_settles :
    (∀ attempt, ∃ ms, retryDelay sha256 eventId attempt = some (.fromMillis ms) ∧
      1000 ≤ ms ∧ ms ≤ 300000) ∧
    (∀ a b d e, a ≤ b → retryDelay sha256 eventId a = some d →
      retryDelay sha256 eventId b = some e → d ≤ e) ∧
    (∀ attempt < 10, jitterMs (baseMs attempt / 4 + 1) (digest sha256 eventId attempt) =
      some (ofBigEndian (digest sha256 eventId attempt) % (baseMs attempt / 4 + 1))) ∧
    ∀ p : DeliveryPolicy, p.validateExpected = .ok () → ∀ attempt, ∃ ms : Nat,
      retryDelayWithin sha256 eventId attempt p.backoffBounds = some (.fromMillis ms) ∧
      p.backoffMinMs ≤ ms ∧ ms ≤ p.backoffMaxMs ∧
      ∀ (db : Database) token code terminal t,
        db.settleFailure p eventId token code terminal (.fromMillis ms) t ≠
          .error .invalidConfig := by
  refine ⟨fun attempt => ?_, fun _ _ _ _ => retryDelay_mono sha256 eventId, ?_, ?_⟩
  · obtain ⟨ms, delay, above, below⟩ := retryDelay_band sha256 eventId attempt
    have := baseMs_ge (max attempt 1).toNat
    simp only [capMs] at above below
    exact ⟨ms, delay, by omega, by omega⟩
  · intro attempt early
    have := baseMs_early early
    exact jitterMs_eq _ (by omega) (by omega)
  · intro p accepted attempt
    have valid : p.Valid := ensure_ok accepted
    obtain ⟨ms, delay, above, below⟩ := retryDelayWithin_bounded sha256 eventId valid attempt
    refine ⟨ms, delay, above, below, fun db token code terminal t => ?_⟩
    have fits : InInt64 ms := by
      simp only [DeliveryPolicy.Valid] at valid
      simp only [InInt64]
      omega
    rw [Database.settleFailure, accepted, boundedMillis_whole fits above below]
    exact nofun

theorem retryDelay_default_policy :
    DeliveryPolicy.default.validateExpected = .ok () ∧ ∃ ms : Nat,
      retryDelayWithin (fun _ => .filled 7) (.filled 1) 3
        DeliveryPolicy.default.backoffBounds = some (.fromMillis ms) ∧ 1000 ≤ (ms : Int) := by
  obtain ⟨ms, delay, above, -⟩ := (retryDelay_grows_and_settles _ _).2.2.2 .default rfl 3
  exact ⟨rfl, ms, delay, above⟩

end KnowledgePlatform.Outbox
