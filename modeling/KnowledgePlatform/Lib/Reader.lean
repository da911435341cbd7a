import KnowledgePlatform.Lib.Bytes
import KnowledgePlatform.Lib.Except
import Mathlib.Data.List.Induction

/-! Reading byte strings from the front. A reader is exact for a relation between values and byte
strings when it takes from the front just the strings that are related to what it returns. -/

namespace KnowledgePlatform

open List

/-- The number that bytes spell, most significant first. -/
def ofBigEndian (bytes : Bytes) : Nat := bytes.foldl (fun n b => 256 * n + b.toNat) 0

theorem ofBigEndian_concat (bytes : Bytes) (b : UInt8) :
    ofBigEndian (bytes ++ [b]) = 256 * ofBigEndian bytes + b.toNat := by
  rw [ofBigEndian, foldl_append]
  rfl

theorem ofBigEndian_bigEndian {width n : Nat} (fits : n < 256 ^ width) :
    ofBigEndian (bigEndian width n) = n := by
  induction width generalizing n with
  | zero =>
    have : n = 0 := by simpa using fits
    rw [this]
    rfl
  | succ width ih =>
    have high : n / 256 < 256 ^ width := Nat.div_lt_of_lt_mul (by rwa [← Nat.pow_succ'])
    rw [bigEndian, ofBigEndian_concat, ih high, UInt8.toNat_ofNat']
    omega

theorem bigEndian_ofBigEndian (bytes : Bytes) :
    bigEndian bytes.length (ofBigEndian bytes) = bytes ∧
      ofBigEndian bytes < 256 ^ bytes.length := by
  induction bytes using reverseRecOn with
  | nil => simp [bigEndian, ofBigEndian]
  | append_singleton bytes b ih =>
    obtain ⟨same, small⟩ := ih
    have byte := b.toNat_lt
    rw [ofBigEndian_concat, length_append, length_singleton]
    constructor
    · rw [bigEndian, show (256 * ofBigEndian bytes + b.toNat) / 256 = ofBigEndian bytes by omega,
        show (256 * ofBigEndian bytes + b.toNat) % 256 = b.toNat by omega, same, UInt8.ofNat_toNat]
    · rw [Nat.pow_succ']
      omega

/-- The text that bytes encode, if they are UTF-8. -/
def fromUtf8 (bytes : Bytes) : Option String := String.fromUTF8? bytes.toByteArray

theorem fromUtf8_iff {bytes : Bytes} {text : String} :
    fromUtf8 bytes = some text ↔ utf8 text.toList = bytes := by
  have encoded : text.toByteArray = (utf8 text.toList).toByteArray := by
    rw [← String.utf8Encode_toList]
    rfl
  unfold fromUtf8 String.fromUTF8?
  constructor
  · intro h
    split at h
    · rw [← Option.some.inj h] at encoded ⊢
      exact (toByteArray_inj.mp encoded).symm
    · cases h
  · rintro rfl
    rw [dif_pos (encoded ▸ text.isValidUTF8)]
    exact congrArg some (String.toByteArray_inj.mp encoded.symm)

/-! ## Readers -/

/-- Takes bytes from the front and leaves the rest, or fails. -/
abbrev ByteReader (ε α : Type) := StateT Bytes (Except ε) α

namespace ByteReader

variable {ε α β : Type}

/-- How many bytes are left. -/
def remaining : ByteReader ε Nat := fun input => .ok (input.length, input)

/-- Fails unless `p` holds; reads nothing. -/
def check (p : Prop) [Decidable p] (e : ε) : ByteReader ε Unit := fun input =>
  if p then .ok ((), input) else .error e

def fail (e : ε) : ByteReader ε α := fun _ => .error e

def lift (x : Except ε α) : ByteReader ε α := fun input => do
  let a ← x
  return (a, input)

/-- The next `size` bytes. -/
def take (truncated : ε) (size : Nat) : ByteReader ε Bytes := fun input =>
  if size ≤ input.length then .ok (input.take size, input.drop size) else .error truncated

def byte (truncated : ε) : ByteReader ε UInt8 := do
  let bytes ← take truncated 1
  return bytes.headD 0

def u32 (truncated : ε) : ByteReader ε UInt32 := do
  let bytes ← take truncated 4
  return UInt32.ofNat (ofBigEndian bytes)

/-- Bytes after their number. -/
def frame (truncated : ε) : ByteReader ε Bytes := do
  let size ← u32 truncated
  take truncated size.toNat

/-- The same reader, `n` times. -/
def repeated : Nat → ByteReader ε α → ByteReader ε (List α)
  | 0, _ => pure []
  | n + 1, r => do
    let a ← r
    let rest ← repeated n r
    return a :: rest

/-- Fails unless `n` items of `size` bytes can still be there. -/
def atMost (n size : Nat) (e : ε) : ByteReader ε Unit := do
  let bytes ← remaining
  check (n ≤ bytes / size) e

/-- Items after their number, which is at least `least`; each takes at least `size` bytes. -/
def counted (truncated e : ε) (least size : Nat) (r : ByteReader ε α) : ByteReader ε (List α) := do
  let count ← u32 truncated
  check (least ≤ count.toNat) e
  atMost count.toNat size e
  repeated count.toNat r

/-- Reads all of the bytes. -/
def whole (trailing : ε) (r : ByteReader ε α) (bytes : Bytes) : Except ε α := do
  let read ← r bytes
  ensure (read.2 = []) trailing
  return read.1

/-! ## Exact readers -/

/-- Takes just the byte strings related to what it returns. -/
def Exact (r : ByteReader ε α) (R : α → Bytes → Prop) : Prop :=
  ∀ input a rest, r input = .ok (a, rest) ↔ ∃ b, R a b ∧ input = b ++ rest

variable {r : ByteReader ε α} {f : α → ByteReader ε β} {R R' : α → Bytes → Prop}
  {S : α → β → Bytes → Prop} {e : ε} {n : Nat}

theorem Exact.congr (h : Exact r R) (same : ∀ a b, R a b ↔ R' a b) : Exact r R' := by
  intro input a rest
  rw [h]
  exact exists_congr fun b => and_congr_left fun _ => same a b

theorem Exact.bind (h : Exact r R) (next : ∀ a, Exact (f a) (S a)) :
    Exact (r >>= f) fun c b => ∃ a x y, R a x ∧ S a c y ∧ b = x ++ y := by
  intro input c rest
  show r input >>= (fun read => f read.1 read.2) = _ ↔ _
  rw [except_bind_iff]
  constructor
  · rintro ⟨⟨a, middle⟩, first, second⟩
    obtain ⟨x, hx, rfl⟩ := (h input a middle).mp first
    obtain ⟨y, hy, rfl⟩ := (next a middle c rest).mp second
    exact ⟨x ++ y, ⟨a, x, y, hx, hy, rfl⟩, (append_assoc _ _ _).symm⟩
  · rintro ⟨_, ⟨a, x, y, hx, hy, rfl⟩, rfl⟩
    refine ⟨(a, y ++ rest), (h _ _ _).mpr ⟨x, hx, append_assoc _ _ _⟩, ?_⟩
    exact (next a _ _ _).mpr ⟨y, hy, rfl⟩

theorem exact_pure (a : α) : Exact (pure a : ByteReader ε α) fun c b => c = a ∧ b = [] := by
  intro input c rest
  have unfolded : (pure a : ByteReader ε α) input = .ok (a, input) := rfl
  simp [unfolded, eq_comm]

theorem exact_fail : Exact (fail e : ByteReader ε α) fun _ _ => False := by
  intro input a rest
  simp [fail]

theorem exact_check {p : Prop} [Decidable p] : Exact (check p e) fun _ b => p ∧ b = [] := by
  intro input a rest
  simp [check, ite_ok_iff, @eq_comm _ rest]

theorem exact_lift {x : Except ε α} : Exact (lift x) fun a b => x = .ok a ∧ b = [] := by
  intro input a rest
  simp [lift, except_map_iff]

theorem exact_take : Exact (take e n) fun a b => a = b ∧ b.length = n := by
  intro input a rest
  unfold take
  constructor
  · intro h
    split at h
    · cases h
      exact ⟨input.take n, ⟨rfl, by simpa⟩, (take_append_drop n input).symm⟩
    · cases h
  · rintro ⟨b, ⟨rfl, rfl⟩, rfl⟩
    rw [if_pos (by simp), take_left, drop_left]

theorem exact_byte : Exact (byte e) fun a b => b = [a] := by
  refine (exact_take.bind fun bytes => exact_pure _).congr ?_
  intro a b
  constructor
  · rintro ⟨bytes, x, y, ⟨rfl, size⟩, ⟨rfl, rfl⟩, rfl⟩
    obtain ⟨c, rfl⟩ := length_eq_one_iff.mp size
    rfl
  · rintro rfl
    exact ⟨[a], [a], [], ⟨rfl, rfl⟩, ⟨rfl, rfl⟩, rfl⟩

theorem exact_u32 : Exact (u32 e) fun a b => b = bigEndian 4 a.toNat := by
  refine (exact_take.bind fun bytes => exact_pure _).congr ?_
  intro a b
  constructor
  · rintro ⟨bytes, x, y, ⟨rfl, size⟩, ⟨rfl, rfl⟩, rfl⟩
    obtain ⟨same, small⟩ := bigEndian_ofBigEndian bytes
    rw [size] at same small
    rw [UInt32.toNat_ofNat', Nat.mod_eq_of_lt (by simpa using small), same, append_nil]
  · rintro rfl
    refine ⟨_, bigEndian 4 a.toNat, [], ⟨rfl, length_bigEndian _ _⟩, ⟨?_, rfl⟩, by simp⟩
    rw [ofBigEndian_bigEndian (by have := a.toNat_lt; omega), UInt32.ofNat_toNat]

theorem exact_frame : Exact (frame e) fun a b =>
    a.length < 2 ^ 32 ∧ b = bigEndian 4 a.length ++ a := by
  refine (exact_u32.bind fun size => exact_take).congr ?_
  intro a b
  constructor
  · rintro ⟨size, x, y, rfl, ⟨rfl, length⟩, rfl⟩
    rw [length]
    exact ⟨size.toNat_lt, rfl⟩
  · rintro ⟨small, rfl⟩
    have number : (UInt32.ofNat a.length).toNat = a.length := UInt32.toNat_ofNat_of_lt' small
    exact ⟨UInt32.ofNat a.length, _, a, by rw [number], ⟨rfl, number.symm⟩, rfl⟩

/-- Items one after the other. -/
def Items (R : α → Bytes → Prop) (as : List α) (b : Bytes) : Prop :=
  ∃ bs, Forall₂ R as bs ∧ b = bs.flatten

variable {b : Bytes}

theorem items_nil : Items R [] b ↔ b = [] := by
  constructor
  · rintro ⟨_, none, rfl⟩
    cases none
    rfl
  · rintro rfl
    exact ⟨[], .nil, rfl⟩

variable {as : List α}

theorem items_cons {a : α} :
    Items R (a :: as) b ↔ ∃ x y, R a x ∧ Items R as y ∧ b = x ++ y := by
  constructor
  · rintro ⟨_, related, rfl⟩
    cases related with
    | cons first rest => exact ⟨_, _, first, ⟨_, rest, rfl⟩, rfl⟩
  · rintro ⟨x, _, first, ⟨bs, rest, rfl⟩, rfl⟩
    exact ⟨x :: bs, .cons first rest, rfl⟩

/-- Items of a fixed form. -/
theorem items_map {g : α → Bytes} :
    Items (fun a b => b = g a) as b ↔ b = as.flatMap g := by
  induction as generalizing b with
  | nil => exact items_nil
  | cons a as ih => simp [items_cons, ih]

variable {size : Nat}

theorem Items.length (h : Items R as b) (each : ∀ a b, R a b → size ≤ b.length) :
    as.length * size ≤ b.length := by
  induction as generalizing b with
  | nil => simp
  | cons a as ih =>
    obtain ⟨x, y, first, rest, rfl⟩ := items_cons.mp h
    have := each a x first
    have := ih rest
    simp only [length_cons, length_append, Nat.succ_mul]
    omega

theorem Exact.repeated (h : Exact r R) :
    Exact (repeated n r) fun as b => as.length = n ∧ Items R as b := by
  induction n with
  | zero =>
    refine (exact_pure []).congr ?_
    intro as b
    cases as <;> simp [items_nil]
  | succ n ih =>
    refine (h.bind fun a => ih.bind fun rest => exact_pure (a :: rest)).congr ?_
    intro as b
    cases as with
    | nil => simp
    | cons => simp [items_cons, ← exists_and_left, and_assoc, and_left_comm]

/-- A bound on what is left changes nothing for a reader that takes as much. -/
theorem Exact.bounded (h : Exact r R) (pos : 0 < size)
    (takes : ∀ a b, R a b → n * size ≤ b.length) :
    Exact (atMost n size e >>= fun _ => r) R := by
  intro input a rest
  have unfolded : (atMost n size e >>= fun _ => r) input =
      (if n ≤ input.length / size then .ok ((), input) else .error e) >>= fun p => r p.2 := rfl
  rw [unfolded, except_bind_iff, ← h]
  constructor
  · rintro ⟨p, first, second⟩
    split at first
    · cases first
      exact second
    · cases first
  · intro read
    obtain ⟨b, hb, rfl⟩ := (h _ _ _).mp read
    have := takes a b hb
    refine ⟨((), b ++ rest), ?_, read⟩
    rw [if_pos]
    rw [Nat.le_div_iff_mul_le pos, length_append]
    omega

theorem Exact.counted {e' : ε} {least : Nat} (h : Exact r R) (pos : 0 < size)
    (each : ∀ a b, R a b → size ≤ b.length) :
    Exact (counted e e' least size r) fun as b => as.length < 2 ^ 32 ∧ least ≤ as.length ∧
      ∃ y, Items R as y ∧ b = bigEndian 4 as.length ++ y := by
  have items (n : Nat) : Exact (atMost n size e' >>= fun _ => ByteReader.repeated n r) fun as b =>
      as.length = n ∧ Items R as b :=
    h.repeated.bounded pos fun as b ⟨number, items⟩ => number ▸ items.length each
  refine (exact_u32.bind fun count => exact_check.bind fun _ => items count.toNat).congr ?_
  intro as b
  constructor
  · rintro ⟨count, _, _, rfl, ⟨_, _, _, ⟨enough, rfl⟩, ⟨number, items⟩, rfl⟩, rfl⟩
    rw [number]
    exact ⟨count.toNat_lt, enough, _, items, rfl⟩
  · rintro ⟨small, enough, y, items, rfl⟩
    have number : (UInt32.ofNat as.length).toNat = as.length := UInt32.toNat_ofNat_of_lt' small
    exact ⟨UInt32.ofNat as.length, _, _, by rw [number],
      ⟨(), _, y, ⟨by rwa [number], rfl⟩, ⟨number.symm, items⟩, rfl⟩, rfl⟩

theorem Exact.whole (h : Exact r R) {bytes : Bytes} {a : α} :
    whole e r bytes = .ok a ↔ R a bytes := by
  simp only [ByteReader.whole, except_iffs, Prod.exists, h bytes]
  simp

end ByteReader

end KnowledgePlatform
