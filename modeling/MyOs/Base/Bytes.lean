import MyOs.Base.Bitmap

/-!
# Stores of bytes

A store gives the byte at every address. Every update changes one range of
addresses: `patch` is the general form, `store` writes a list of bytes, `copy`
and `fill` are `memcpy` and `memset`. What an update leaves alone is one lemma
for all of them.
-/

namespace MyOs

/-- The bytes of a memory, a disk or a buffer. -/
abbrev ByteStore := Nat → Byte

namespace ByteStore

/-- The addresses `[pos, pos + n)` take their bytes from `g`. -/
def patch (m : ByteStore) (pos n : Nat) (g : ByteStore) : ByteStore :=
  fun a => if pos ≤ a ∧ a < pos + n then g a else m a

/-- Write `bs` from `pos` on. -/
def store (m : ByteStore) (pos : Nat) (bs : List Byte) : ByteStore :=
  m.patch pos bs.length fun a => bs.getD (a - pos) 0

/-- The `n` bytes from `pos` on. -/
def load (m : ByteStore) (pos n : Nat) : List Byte :=
  (List.range n).map fun i => m (pos + i)

/-- `memcpy` between two stores: `n` bytes of `src` from `spos` on. -/
def copy (m : ByteStore) (dst : Nat) (src : ByteStore) (spos n : Nat) : ByteStore :=
  m.store dst (src.load spos n)

/-- `memset`. -/
def fill (m : ByteStore) (pos : Nat) (b : Byte) (n : Nat) : ByteStore :=
  m.patch pos n fun _ => b

variable {m g : ByteStore} {pos n a : Nat}

theorem patch_inside (h : pos ≤ a) (h' : a < pos + n) : m.patch pos n g a = g a :=
  if_pos ⟨h, h'⟩

theorem patch_outside (h : a < pos ∨ pos + n ≤ a) : m.patch pos n g a = m a :=
  if_neg (by omega)

@[simp] theorem patch_zero : m.patch pos 0 g = m := by
  funext a
  exact patch_outside (by omega)

@[simp] theorem length_load : (m.load pos n).length = n := by simp [load]

@[simp] theorem load_zero : m.load pos 0 = [] := rfl

theorem getElem?_load {i : Nat} (h : i < n) : (m.load pos n)[i]? = some (m (pos + i)) := by
  simp [load, h]

/-- The bytes a load returns, by index. -/
theorem getD_load {i : Nat} (h : i < n) : (m.load pos n).getD i 0 = m (pos + i) := by
  rw [List.getD_eq_getElem?_getD, getElem?_load h]
  rfl

/-- Two loads agree exactly when the bytes do. -/
theorem load_eq_iff {m' : ByteStore} {pos' : Nat} :
    m.load pos n = m'.load pos' n ↔ ∀ i, i < n → m (pos + i) = m' (pos' + i) := by
  constructor
  · intro h i hi
    rw [← getD_load (m := m) hi, h, getD_load hi]
  · intro h
    apply List.map_congr_left
    intro i hi
    exact h i (List.mem_range.mp hi)

theorem load_add (n₁ n₂ : Nat) :
    m.load pos (n₁ + n₂) = m.load pos n₁ ++ m.load (pos + n₁) n₂ := by
  simp [load, List.range_add, Function.comp_def, Nat.add_assoc]

@[simp] theorem store_nil : m.store pos [] = m := patch_zero

theorem store_outside {bs : List Byte} (h : a < pos ∨ pos + bs.length ≤ a) :
    m.store pos bs a = m a :=
  patch_outside h

/-- A stored byte, by index. -/
theorem store_inside {bs : List Byte} {i : Nat} (h : i < bs.length) :
    m.store pos bs (pos + i) = bs.getD i 0 := by
  rw [store, patch_inside (by omega) (by omega), Nat.add_sub_cancel_left]

/-- Storing a list is storing its front and then its back. -/
theorem store_append (bs bs' : List Byte) :
    m.store pos (bs ++ bs') = (m.store pos bs).store (pos + bs.length) bs' := by
  funext a
  rcases Nat.lt_or_ge a pos with hlt | hge
  · rw [store_outside (.inl hlt), store_outside (.inl (by omega)), store_outside (.inl hlt)]
  · obtain ⟨i, rfl⟩ := Nat.exists_eq_add_of_le hge
    rcases Nat.lt_or_ge i bs.length with hi | hi
    · rw [store_inside (by simp; omega), store_outside (.inl (by omega)), store_inside hi]
      simp [List.getElem?_append_left hi]
    · obtain ⟨j, rfl⟩ := Nat.exists_eq_add_of_le hi
      rcases Nat.lt_or_ge j bs'.length with hj | hj
      · rw [store_inside (by simp; omega), ← Nat.add_assoc, store_inside hj]
        simp [List.getElem?_append_right (Nat.le_add_right _ _)]
      · rw [store_outside (.inr (by simp; omega)), store_outside (.inr (by omega)),
          store_outside (.inr (by omega))]

theorem copy_outside {m src : ByteStore} {dst spos n a : Nat} (h : a < dst ∨ dst + n ≤ a) :
    m.copy dst src spos n a = m a := by
  rw [copy, store_outside (by simpa using h)]

theorem copy_inside {m src : ByteStore} {dst spos n i : Nat} (h : i < n) :
    m.copy dst src spos n (dst + i) = src (spos + i) := by
  rw [copy, store_inside (by simpa using h), getD_load h]

@[simp] theorem copy_zero {m src : ByteStore} {dst spos : Nat} : m.copy dst src spos 0 = m := by
  simp [copy]

/-- Copying a range is copying its front and then its back. -/
theorem copy_add {m src : ByteStore} {dst spos : Nat} (n₁ n₂ : Nat) :
    m.copy dst src spos (n₁ + n₂) =
      (m.copy dst src spos n₁).copy (dst + n₁) src (spos + n₁) n₂ := by
  simp only [copy, load_add, store_append, length_load]

/-- A copy as a patch. -/
theorem copy_eq_patch {m src : ByteStore} {dst spos n : Nat} :
    m.copy dst src spos n = m.patch dst n fun a => src (spos + (a - dst)) := by
  funext a
  by_cases hout : a < dst ∨ dst + n ≤ a
  · rw [copy_outside hout, patch_outside hout]
  · obtain ⟨i, rfl⟩ := Nat.exists_eq_add_of_le (show dst ≤ a by omega)
    rw [copy_inside (by omega), patch_inside (by omega) (by omega), Nat.add_sub_cancel_left]

/-- A copy depends only on the bytes it reads. -/
theorem copy_congr {m src src' : ByteStore} {dst spos spos' n : Nat}
    (h : ∀ i, i < n → src (spos + i) = src' (spos' + i)) :
    m.copy dst src spos n = m.copy dst src' spos' n := by
  rw [copy, copy, load_eq_iff.mpr h]

/-- Read-modify-write: reading a range, replacing its front and writing it
back replaces the front and nothing else. -/
theorem copy_merged {m b src : ByteStore} {dst spos r n : Nat} (h : r ≤ n) :
    m.copy dst ((b.copy 0 m dst n).copy 0 src spos r) 0 n = m.copy dst src spos r := by
  funext a
  by_cases hout : a < dst ∨ dst + n ≤ a
  · rw [copy_outside hout, copy_outside (by omega)]
  obtain ⟨i, rfl⟩ := Nat.exists_eq_add_of_le (show dst ≤ a by omega)
  rw [copy_inside (by omega)]
  rcases Nat.lt_or_ge i r with hi | hi
  · rw [copy_inside hi, copy_inside hi]
  · rw [copy_outside (.inr (by omega)), copy_inside (by omega), copy_outside (.inr (by omega))]

/-! ## Words -/

/-- The little-endian word at `a`. -/
def load32 (m : ByteStore) (a : Nat) : Nat :=
  (m a).toNat + (m (a + 1)).toNat * 2 ^ 8 + (m (a + 2)).toNat * 2 ^ 16 + (m (a + 3)).toNat * 2 ^ 24

/-- The four bytes of a word. -/
def wordBytes (w : Nat) : List Byte :=
  [BitVec.ofNat 8 w, BitVec.ofNat 8 (w / 2 ^ 8), BitVec.ofNat 8 (w / 2 ^ 16),
    BitVec.ofNat 8 (w / 2 ^ 24)]

/-- Write a little-endian word at `a`. -/
def store32 (m : ByteStore) (a w : Nat) : ByteStore := m.store a (wordBytes w)

variable {m' : ByteStore} {b w : Nat}

theorem load32_lt (m : ByteStore) (a : Nat) : m.load32 a < 2 ^ 32 := by
  have h0 := (m a).isLt
  have h1 := (m (a + 1)).isLt
  have h2 := (m (a + 2)).isLt
  have h3 := (m (a + 3)).isLt
  simp only [load32]
  omega

theorem load32_congr (h : ∀ i, i < 4 → m (a + i) = m' (b + i)) : m.load32 a = m'.load32 b := by
  simp only [load32]
  rw [← Nat.add_zero a, ← Nat.add_zero b, h 0 (by decide)]
  simp only [Nat.add_zero, h 1 (by decide), h 2 (by decide), h 3 (by decide)]

theorem load32_store32 (h : w < 2 ^ 32) : (m.store32 a w).load32 a = w := by
  have hb (i : Nat) (hi : i < 4) := @store_inside m a (wordBytes w) i hi
  have h0 : m.store a (wordBytes w) a = (wordBytes w).getD 0 0 := hb 0 (by decide)
  simp only [load32, store32, h0, hb 1 (by decide), hb 2 (by decide), hb 3 (by decide)]
  simp only [wordBytes, List.getD_cons_zero, List.getD_cons_succ, BitVec.toNat_ofNat]
  omega

theorem load32_store32_ne (h : a + 4 ≤ b ∨ b + 4 ≤ a) :
    (m.store32 a w).load32 b = m.load32 b :=
  load32_congr fun i hi => store_outside (by simp [wordBytes]; omega)

/-- Writing back the word that is there changes nothing. -/
theorem store32_load32 : m.store32 a (m.load32 a) = m := by
  have h0 := (m a).isLt
  have h1 := (m (a + 1)).isLt
  have h2 := (m (a + 2)).isLt
  have h3 := (m (a + 3)).isLt
  have hbytes : wordBytes (m.load32 a) = [m a, m (a + 1), m (a + 2), m (a + 3)] := by
    simp only [wordBytes, load32, List.cons.injEq, and_true]
    refine ⟨?_, ?_, ?_, ?_⟩ <;> apply BitVec.eq_of_toNat_eq <;> rw [BitVec.toNat_ofNat] <;> omega
  funext b
  by_cases hout : b < a ∨ a + 4 ≤ b
  · exact store_outside hout
  · obtain ⟨i, rfl⟩ := Nat.exists_eq_add_of_le (show a ≤ b by omega)
    have hi : i = 0 ∨ i = 1 ∨ i = 2 ∨ i = 3 := by omega
    rw [store32, hbytes]
    rcases hi with rfl | rfl | rfl | rfl <;> exact store_inside (by simp)

/-- Stores of words at one address: the last one stays. -/
theorem store32_store32 {w' : Nat} : (m.store32 a w).store32 a w' = m.store32 a w' := by
  funext b
  by_cases hout : b < a ∨ a + 4 ≤ b
  · rw [store32, store32, store_outside hout, store_outside hout, store32, store_outside hout]
  · obtain ⟨i, rfl⟩ := Nat.exists_eq_add_of_le (show a ≤ b by omega)
    have hi : i < (wordBytes w').length := by simp only [wordBytes, List.length_cons, List.length_nil]; omega
    rw [store32, store_inside hi, store32, store_inside hi]

/-- At addresses of words, a store changes the word it names. -/
theorem load32_store32_word (hw : w < 2 ^ 32) (ha : a % 4 = 0) (hb : b % 4 = 0) :
    (m.store32 a w).load32 b = if b = a then w else m.load32 b := by
  split
  · next h => rw [h, load32_store32 hw]
  · exact load32_store32_ne (by omega)

theorem load32_patch_outside {pos n : Nat} (h : b + 4 ≤ pos ∨ pos + n ≤ b) :
    (m.patch pos n g).load32 b = m.load32 b :=
  load32_congr fun i hi => patch_outside (by omega)

theorem load32_copy_outside {src : ByteStore} {pos spos n : Nat}
    (h : b + 4 ≤ pos ∨ pos + n ≤ b) : (m.copy pos src spos n).load32 b = m.load32 b :=
  load32_congr fun i hi => copy_outside (by omega)

theorem load32_copy_inside {src : ByteStore} {pos spos n k : Nat} (h : k + 4 ≤ n) :
    (m.copy pos src spos n).load32 (pos + k) = src.load32 (spos + k) :=
  load32_congr fun i hi => by
    rw [Nat.add_assoc, copy_inside (by omega), Nat.add_assoc]

theorem load32_fill_zero {pos n : Nat} (h : pos ≤ b) (h' : b + 4 ≤ pos + n) :
    (m.fill pos 0 n).load32 b = 0 := by
  have hz (i : Nat) (hi : i < 4) : (m.fill pos 0 n) (b + i) = 0 :=
    patch_inside (by omega) (by omega)
  have h0 : (m.fill pos 0 n) b = 0 := hz 0 (by decide)
  simp only [load32, h0, hz 1 (by decide), hz 2 (by decide), hz 3 (by decide)]
  rfl

/-- The store that holds these words and is zero elsewhere. -/
def ofWords : List (Nat × Nat) → ByteStore
  | [] => fun _ => 0
  | (a, w) :: rest => (ofWords rest).store32 a w

/-- Reading a word of it is a lookup. -/
theorem load32_ofWords {words : List (Nat × Nat)} (ha : a % 4 = 0)
    (hwords : ∀ p ∈ words, p.1 % 4 = 0 ∧ p.2 < 2 ^ 32) :
    (ofWords words).load32 a = (words.lookup a).getD 0 := by
  induction words with
  | nil => simp [ofWords, load32]
  | cons p rest ih =>
      obtain ⟨q, w⟩ := p
      obtain ⟨hq, hw⟩ := hwords (q, w) List.mem_cons_self
      rw [ofWords, List.lookup_cons]
      by_cases heq : a = q
      · subst heq
        rw [load32_store32 hw, beq_self_eq_true]
        rfl
      · simp only at hq
        rw [load32_store32_ne (by omega), ih fun p hp => hwords p (List.mem_cons_of_mem _ hp),
          beq_eq_false_iff_ne.mpr heq]

/-- A word of it is zero or one of the list's. -/
theorem load32_ofWords_mem {words : List (Nat × Nat)} (ha : a % 4 = 0)
    (hwords : ∀ p ∈ words, p.1 % 4 = 0 ∧ p.2 < 2 ^ 32) :
    (ofWords words).load32 a = 0 ∨ (a, (ofWords words).load32 a) ∈ words := by
  rw [load32_ofWords ha hwords]
  clear hwords
  induction words with
  | nil => exact .inl rfl
  | cons p rest ih =>
      obtain ⟨b, w⟩ := p
      rw [List.lookup_cons]
      cases hab : a == b with
      | true =>
          rw [beq_iff_eq.mp hab]
          exact .inr List.mem_cons_self
      | false => exact ih.imp_right (List.mem_cons_of_mem _)

end ByteStore
end MyOs
