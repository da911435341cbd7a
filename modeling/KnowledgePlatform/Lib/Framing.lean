import KnowledgePlatform.Lib.Keyed

/-! Length-framed encodings. Two parts split when equal byte strings that begin with them agree on
them; encodings made of such parts determine what they encode, part by part. -/

namespace KnowledgePlatform.Framing

open List

variable {ε : Type}

/-- Whatever follows, equal beginnings mean `C`, and then the rests are equal. -/
def Splits (p q : Except ε Bytes) (C : Prop) : Prop :=
  ∀ x y s t, p = .ok x → q = .ok y → x ++ s = y ++ t → C ∧ s = t

/-- Parts one after the other; the first failure is the failure of all. -/
def parts : List (Except ε Bytes) → Except ε Bytes
  | [] => .ok []
  | p :: ps => do
    let x ← p
    let y ← parts ps
    return x ++ y

/-- A number of elements or bytes, on four bytes. -/
def count (tooLarge : ε) (n : Nat) : Except ε Bytes :=
  if n < 2 ^ 32 then .ok (bigEndian 4 n) else .error tooLarge

/-- The bytes after their number. -/
def frame (tooLarge : ε) (bytes : Bytes) : Except ε Bytes :=
  parts [count tooLarge bytes.length, .ok bytes]

/-- The members one after the other, each framed, after their number. -/
def list (tooLarge : ε) (members : List Bytes) : Except ε Bytes :=
  parts (count tooLarge members.length :: members.map (frame tooLarge))

/-- The members in order; a repeated one is refused. -/
def set (tooLarge repeated : ε) (members : List Bytes) : Except ε Bytes := do
  ensure ((Keyed.ofList id members).length = members.length) repeated
  list tooLarge (Keyed.ofList id members)

section

variable {p q : Except ε Bytes} {ps qs : List (Except ε Bytes)} {C D : Prop} {e : ε}

theorem Splits.mono (h : Splits p q C) (sub : C → D) : Splits p q D :=
  fun x y s t hx hy same => (h x y s t hx hy same).imp sub id

variable {b : Bytes}

/-- Equal encodings are of things that agree. -/
theorem Splits.eq_ok (h : Splits p q C) (hp : p = .ok b) (hq : q = .ok b) : C :=
  (h b b [] [] hp hq rfl).1

theorem parts_cons_iff :
    parts (p :: ps) = .ok b ↔ ∃ x y, p = .ok x ∧ parts ps = .ok y ∧ b = x ++ y := by
  simp only [parts, except_iffs, exists_and_left, @eq_comm _ b]

theorem parts_nil_iff : parts ([] : List (Except ε Bytes)) = .ok b ↔ b = [] := by
  simp [parts, eq_comm]

variable {n : Nat}

theorem count_iff :
    count e n = .ok b ↔ n < 2 ^ 32 ∧ b = bigEndian 4 n := ite_ok_iff

variable {x : Bytes}

theorem parts_ok_cons_iff :
    parts (.ok x :: ps) = .ok b ↔ ∃ y, parts ps = .ok y ∧ b = x ++ y := by
  simp [parts_cons_iff]

theorem parts_count_cons_iff :
    parts (count e n :: ps) = .ok b ↔
      n < 2 ^ 32 ∧ ∃ y, parts ps = .ok y ∧ b = bigEndian 4 n ++ y := by
  simp [parts_cons_iff, count_iff, and_assoc]

theorem parts_map_iff {α : Type} {f : α → Except ε Bytes} {xs : List α} :
    parts (xs.map f) = .ok b ↔ ∃ ys, Forall₂ (fun x y => f x = .ok y) xs ys ∧ b = ys.flatten := by
  induction xs generalizing b with
  | nil => simp [parts_nil_iff]
  | cons x xs ih =>
    simp [parts_cons_iff, ih, forall₂_cons_left_iff, and_assoc]

theorem frame_iff :
    frame e x = .ok b ↔ x.length < 2 ^ 32 ∧ b = bigEndian 4 x.length ++ x := by
  simp only [frame, parts_count_cons_iff, parts_ok_cons_iff, parts_nil_iff, exists_eq_left,
    append_nil]

theorem splits_nil : Splits (parts ([] : List (Except ε Bytes))) (parts []) True := by
  intro x y s t hx hy same
  cases hx
  cases hy
  exact ⟨trivial, same⟩

theorem Splits.andThen (first : Splits p q C) (rest : C → Splits (parts ps) (parts qs) D) :
    Splits (parts (p :: ps)) (parts (q :: qs)) (C ∧ D) := by
  intro x y s t hx hy same
  obtain ⟨x₁, x₂, hx₁, hx₂, rfl⟩ := parts_cons_iff.mp hx
  obtain ⟨y₁, y₂, hy₁, hy₂, rfl⟩ := parts_cons_iff.mp hy
  rw [append_assoc, append_assoc] at same
  obtain ⟨hc, same⟩ := first x₁ y₁ _ _ hx₁ hy₁ same
  obtain ⟨hd, same⟩ := rest hc x₂ y₂ s t hx₂ hy₂ same
  exact ⟨⟨hc, hd⟩, same⟩

theorem Splits.cons (first : Splits p q C) (rest : Splits (parts ps) (parts qs) D) :
    Splits (parts (p :: ps)) (parts (q :: qs)) (C ∧ D) := first.andThen fun _ => rest

theorem splits_fixed {y : Bytes} (size : x.length = y.length) :
    Splits (.ok x : Except ε Bytes) (.ok y) (x = y) := by
  intro x' y' s t hx hy same
  cases hx
  cases hy
  exact append_inj same size

theorem splits_count {m : Nat} : Splits (count e m) (count e n) (m = n) := by
  intro x y s t hx hy same
  obtain ⟨hm, rfl⟩ := count_iff.mp hx
  obtain ⟨hn, rfl⟩ := count_iff.mp hy
  obtain ⟨number, rest⟩ := append_inj same (by simp)
  have number := bigEndian_inj number
  rw [show (256 : Nat) ^ 4 = 2 ^ 32 by norm_num, Nat.mod_eq_of_lt hm, Nat.mod_eq_of_lt hn] at number
  exact ⟨number, rest⟩

theorem splits_frame {a : Bytes} : Splits (frame e a) (frame e b) (a = b) :=
  (splits_count.andThen fun size => (splits_fixed size).cons splits_nil).mono fun h => h.2.1

theorem splits_utf8 {s t : String} :
    Splits (frame e (utf8 s.toList)) (frame e (utf8 t.toList)) (s = t) :=
  splits_frame.mono fun same => String.toList_inj.mp (utf8_inj same)

theorem splits_ok {y : Bytes} (size : x.length = y.length) (inj : x = y → C) :
    Splits (.ok x : Except ε Bytes) (.ok y) C :=
  (splits_fixed size).mono inj

theorem splits_uuid {s t : Uuid} : Splits (.ok s.bytes : Except ε Bytes) (.ok t.bytes) (s = t) :=
  splits_ok (s.size.trans t.size.symm) Uuid.ext_bytes

variable {c : UInt8}

theorem parts_head (h : parts (.ok (c :: x) :: ps) = .ok b) :
    b.head? = some c := by
  obtain ⟨_, y, hx, -, rfl⟩ := parts_cons_iff.mp h
  cases hx
  rfl

/-- Parts that start with different bytes are never equal. -/
theorem splits_heads {d : UInt8} (differ : c ≠ d)
    (hp : ∀ b, p = .ok b → b.head? = some c) (hq : ∀ b, q = .ok b → b.head? = some d) :
    Splits p q C := by
  intro x y s t hx hy same
  have left : (x ++ s).head? = some c := mem_head?_append_of_mem_head? (hp x hx)
  have right : (y ++ t).head? = some d := mem_head?_append_of_mem_head? (hq y hy)
  rw [same, right] at left
  exact absurd (Option.some.inj left).symm differ

theorem ok_head (h : (.ok (c :: x) : Except ε Bytes) = .ok b) :
    b.head? = some c := by
  cases h
  rfl

/-- Parts of one size after the same tag. -/
theorem splits_tagged {y : Bytes} (size : x.length = y.length) (inj : x = y → C) :
    Splits (.ok (c :: x) : Except ε Bytes) (.ok (c :: y)) C :=
  splits_ok (by simp [size]) fun same => inj (cons.inj same).2

/-- Two parts after the same tag. -/
theorem splits_after (h : Splits p q C) :
    Splits (parts [.ok [c], p]) (parts [.ok [c], q]) C :=
  ((splits_ok rfl fun _ => trivial).cons (h.cons splits_nil)).mono fun h => h.2.1

/-- What may be missing is written with a tag of its own either way. -/
theorem splits_option {α : Type} {f : Option α → Except ε Bytes}
    (absent : f none = .ok [0]) (present : ∀ x b, f (some x) = .ok b → b.head? = some 1)
    (both : ∀ x y, Splits (f (some x)) (f (some y)) (x = y)) {a b : Option α} :
    Splits (f a) (f b) (a = b) := by
  have missing (b : Bytes) (h : f none = .ok b) : b.head? = some 0 := ok_head (absent ▸ h)
  cases a with
  | none =>
    cases b with
    | none =>
      rw [absent]
      exact splits_ok rfl fun _ => rfl
    | some b => exact splits_heads (by decide) missing (present b)
  | some a =>
    cases b with
    | none => exact splits_heads (by decide) (present a) missing
    | some b => exact (both a b).mono (congrArg _)

/-- Elements that split, one after the other, after their number. -/
theorem splits_each {α : Type} {f : α → Except ε Bytes} {R : α → α → Prop} {xs ys : List α}
    (each : ∀ x y, Splits (f x) (f y) (R x y)) :
    Splits (parts (count e xs.length :: xs.map f)) (parts (count e ys.length :: ys.map f))
      (Forall₂ R xs ys) := by
  have elements (size : xs.length = ys.length) :
      Splits (parts (xs.map f)) (parts (ys.map f)) (Forall₂ R xs ys) := by
    induction xs generalizing ys with
    | nil =>
      rw [eq_nil_of_length_eq_zero size.symm]
      exact splits_nil.mono fun _ => .nil
    | cons x xs ih =>
      cases ys with
      | nil => cases size
      | cons y =>
        apply ((each x y).cons (ih (Nat.succ.inj size))).mono
        rintro ⟨first, rest⟩
        exact .cons first rest
  exact (splits_count.andThen elements).mono And.right

variable {xs ys : List Bytes}

theorem splits_list : Splits (list e xs) (list e ys) (xs = ys) := by
  have each : Splits (list e xs) (list e ys) (Forall₂ Eq xs ys) :=
    splits_each fun _ _ => splits_frame
  exact each.mono fun h => forall₂_eq_eq_eq ▸ h

variable {e' : ε}

/-- An encoded set determines its members up to their order. -/
theorem splits_set :
    Splits (set e e' xs) (set e e' ys) (xs.Perm ys) := by
  intro x y s t hx hy same
  obtain ⟨sizeX, hx⟩ := ensure_bind_iff.mp hx
  obtain ⟨sizeY, hy⟩ := ensure_bind_iff.mp hy
  obtain ⟨equal, rest⟩ := splits_list x y s t hx hy same
  refine ⟨?_, rest⟩
  calc xs.Perm (Keyed.ofList id xs) := Keyed.ofList_id_perm sizeX
    _ = Keyed.ofList id ys := equal
    Perm _ ys := (Keyed.ofList_id_perm sizeY).symm

theorem set_perm (perm : xs.Perm ys) :
    set e e' xs = set e e' ys := by
  unfold set
  rw [Keyed.ofList_id_congr fun x => perm.mem_iff, perm.length_eq]

/-- Members that are encoded as they are framed. -/
theorem framed_iff {xs : List (Except ε Bytes)} :
    parts (count e xs.length :: xs.map (· >>= frame e)) = .ok b ↔
      ∃ ms : List Bytes, xs = ms.map .ok ∧ list e ms = .ok b := by
  have oks {ms : List Bytes} : Forall₂ (fun x m => x = .ok m) xs ms ↔ xs = ms.map .ok := by
    rw [← forall₂_eq_eq_eq, forall₂_map_right_iff]
  have frames {y : Bytes} : parts (xs.map (· >>= frame e)) = .ok y ↔
      ∃ ms : List Bytes, xs = ms.map .ok ∧ parts (ms.map (frame e)) = .ok y := by
    simp only [parts_map_iff, except_bind_iff, forall₂_comp, oks, ← exists_and_left,
      ← exists_and_right, and_assoc]
    exact exists_comm
  rw [parts_cons_iff]
  constructor
  · rintro ⟨n, y, hn, hy, rfl⟩
    obtain ⟨ms, rfl, hms⟩ := frames.mp hy
    rw [length_map] at hn
    exact ⟨ms, rfl, parts_cons_iff.mpr ⟨n, y, hn, hms, rfl⟩⟩
  · rintro ⟨ms, rfl, h⟩
    obtain ⟨n, y, hn, hy, rfl⟩ := parts_cons_iff.mp h
    rw [length_map]
    exact ⟨n, y, hn, frames.mpr ⟨ms, rfl, hy⟩, rfl⟩

theorem splits_framed :
    Splits (p >>= frame e) (q >>= frame e) (∃ b, p = .ok b ∧ q = .ok b) := by
  intro x y s t hx hy same
  obtain ⟨b, hp, hx⟩ := except_bind_ok hx
  obtain ⟨c, hq, hy⟩ := except_bind_ok hy
  obtain ⟨rfl, rest⟩ := splits_frame x y s t hx hy same
  exact ⟨⟨b, hp, hq⟩, rest⟩

/-- Frames up to the end need no number: they determine their list. -/
theorem frames_inj {xs ys : List (Except ε Bytes)} (hx : parts (xs.map (· >>= frame e)) = .ok b)
    (hy : parts (ys.map (· >>= frame e)) = .ok b) :
    xs = ys := by
  have nonempty {p : Except ε Bytes} {x : Bytes} (h : p >>= frame e = .ok x) : x ≠ [] := by
    obtain ⟨c, -, framed⟩ := except_bind_ok h
    obtain ⟨-, rfl⟩ := frame_iff.mp framed
    simp [bigEndian]
  induction xs generalizing ys b with
  | nil =>
    obtain rfl := parts_nil_iff.mp hx
    cases ys with
    | nil => rfl
    | cons =>
      obtain ⟨first, rest, framed, -, none⟩ := parts_cons_iff.mp hy
      exact absurd (append_eq_nil_iff.mp none.symm).1 (nonempty framed)
  | cons x xs ih =>
    obtain ⟨x₁, x₂, hx₁, hx₂, rfl⟩ := parts_cons_iff.mp hx
    cases ys with
    | nil =>
      have none := parts_nil_iff.mp hy
      exact absurd (append_eq_nil_iff.mp none).1 (nonempty hx₁)
    | cons =>
      obtain ⟨y₁, y₂, hy₁, hy₂, same⟩ := parts_cons_iff.mp hy
      obtain ⟨⟨c, hx, hy⟩, rfl⟩ := splits_framed x₁ y₁ x₂ y₂ hx₁ hy₁ same
      rw [hx, hy, ih hx₂ hy₂]

/-- Parts that come out the same come out the same together. -/
theorem parts_mono (each : Forall₂ (fun p q => ∀ b, p = .ok b → q = .ok b) ps qs)
    (h : parts ps = .ok b) : parts qs = .ok b := by
  induction each generalizing b with
  | nil => exact h
  | cons first _ ih =>
    obtain ⟨x, y, hx, hy, rfl⟩ := parts_cons_iff.mp h
    exact parts_cons_iff.mpr ⟨x, y, first x hx, ih hy, rfl⟩

theorem parts_append_iff :
    parts (ps ++ qs) = .ok b ↔ ∃ x y, parts ps = .ok x ∧ parts qs = .ok y ∧ b = x ++ y := by
  induction ps generalizing b with
  | nil => simp [parts]
  | cons p ps ih =>
    simp [parts_cons_iff, ih, ← exists_and_left, ← exists_and_right, and_assoc]
    exact ⟨fun ⟨x, y, z, h⟩ => ⟨z, x, y, h⟩, fun ⟨z, x, y, h⟩ => ⟨x, y, z, h⟩⟩

/-- A set takes at least the bytes of its number of members. -/
theorem set_length (h : set e e' xs = .ok b) :
    4 ≤ b.length := by
  obtain ⟨-, h⟩ := ensure_bind_iff.mp h
  obtain ⟨n, y, hn, -, rfl⟩ := parts_cons_iff.mp h
  obtain ⟨-, rfl⟩ := count_iff.mp hn
  simp

theorem set_nil : set e e' [] = .ok (bigEndian 4 0) := rfl

theorem parts_ok_iff : (∃ b, parts ps = .ok b) ↔ ∀ p ∈ ps, ∃ b, p = .ok b := by
  induction ps with
  | nil => simp [parts]
  | cons p ps ih =>
    rw [forall_mem_cons, ← ih]
    simp [parts_cons_iff]

theorem count_ok_iff : (∃ b, count e n = .ok b) ↔ n < 2 ^ 32 := by
  simp [count_iff]

theorem frame_ok_iff : (∃ b, frame e x = .ok b) ↔ x.length < 2 ^ 32 := by
  unfold frame
  rw [parts_ok_iff, forall_mem_cons, count_ok_iff]
  simp

theorem list_ok_iff {ms : List Bytes} :
    (∃ b, list e ms = .ok b) ↔ ms.length < 2 ^ 32 ∧ ∀ x ∈ ms, x.length < 2 ^ 32 := by
  unfold list
  rw [parts_ok_iff, forall_mem_cons, count_ok_iff]
  simp only [forall_mem_map, frame_ok_iff]

end

/-! ## Blocks

Lists written as blocks one after the other, where no block begins another. -/

section

variable {α β : Type*} {f : α → List β} {xs ys : List α} {s t : List β}

/-- Blocks up to something that begins no block determine their list. -/
theorem blocks_append_inj (block : ∀ x y s t, f x ++ s = f y ++ t → f x = f y)
    (hs : ∀ x u, s ≠ f x ++ u) (ht : ∀ x u, t ≠ f x ++ u)
    (same : xs.flatMap f ++ s = ys.flatMap f ++ t) : xs.map f = ys.map f ∧ s = t := by
  induction xs generalizing ys with
  | nil =>
    cases ys with
    | nil => exact ⟨rfl, same⟩
    | cons y =>
      rw [flatMap_cons, append_assoc] at same
      exact absurd same (hs y _)
  | cons x xs ih =>
    cases ys with
    | nil =>
      rw [flatMap_cons, append_assoc] at same
      exact absurd same.symm (ht x _)
    | cons y =>
      rw [flatMap_cons, flatMap_cons, append_assoc, append_assoc] at same
      have first := block x y _ _ same
      rw [first] at same
      obtain ⟨rest, tails⟩ := ih (append_cancel_left same)
      exact ⟨by rw [map_cons, map_cons, first, rest], tails⟩

theorem blocks_inj (block : ∀ x y s t, f x ++ s = f y ++ t → f x = f y) (nonempty : ∀ x, f x ≠ [])
    (same : xs.flatMap f = ys.flatMap f) : xs.map f = ys.map f := by
  have ends (x : α) (u : List β) : [] ≠ f x ++ u := fun none =>
    nonempty x (append_eq_nil_iff.mp none.symm).1
  refine (blocks_append_inj block ends ends ?_).1
  rw [append_nil, append_nil, same]

end

end KnowledgePlatform.Framing
