import MyOs.Base.Bytes
import Mathlib.Logic.Function.Basic

/-!
# Physical memory behind page tables

Several address spaces over one physical memory: the directory of a space
names its page tables, which other spaces may share, and a table gives a page a
frame or none. Words are stored byte by byte, so an address needs no alignment
and a word may lie on two pages. `Region` is a range of a space that can be
written without writing over itself, `Holds` the words found from an address
on, and `WritesIn` what is left alone by writing inside a range.
-/

namespace MyOs

/-- A 32-bit machine word. -/
abbrev Word := BitVec 32

namespace Word

/-- Byte `i` of a word. -/
def byte (w : Word) (i : Nat) : Byte := w.extractLsb' (8 * i) 8

/-- The word with these bytes, the lowest first. -/
def ofBytes (b₀ b₁ b₂ b₃ : Byte) : Word := b₃ ++ b₂ ++ b₁ ++ b₀

theorem ofBytes_byte (w : Word) : ofBytes (w.byte 0) (w.byte 1) (w.byte 2) (w.byte 3) = w := by
  apply BitVec.eq_of_getLsbD_eq
  intro i hi
  simp only [ofBytes, byte, BitVec.getLsbD_append, BitVec.getLsbD_extractLsb']
  grind

/-- The address `i` bytes further on. -/
def offset (v : Word) (i : Nat) : Word := v + BitVec.ofNat 32 i

@[simp] theorem offset_zero (v : Word) : v.offset 0 = v := BitVec.add_zero v

@[simp] theorem offset_offset (v : Word) (i j : Nat) :
    (v.offset i).offset j = v.offset (i + j) := by
  rw [offset, offset, offset, BitVec.ofNat_add, BitVec.add_assoc]

end Word

/-- The directories of the spaces `ι`, and the page tables they name. -/
structure PageTables (ι : Type) where
  directories : ι → Nat → Option Nat
  tables : Nat → Nat → Option Nat

/-- The directory entry and the table entry of an address. -/
def Word.directoryIndex (v : Word) : Nat := v.toNat / 2 ^ 22

def Word.tableIndex (v : Word) : Nat := v.toNat / 2 ^ 12 % 2 ^ 10

/-- The physical address of `v` in the space `c`. -/
def PageTables.translate {ι : Type} (t : PageTables ι) (c : ι) (v : Word) : Option Nat := do
  let table ← t.directories c v.directoryIndex
  let frame ← t.tables table v.tableIndex
  pure (frame + v.toNat % 2 ^ 12)

/-- Entry `j` of a table set to a frame. -/
def PageTables.setEntry {ι : Type} (t : PageTables ι) (table j frame : Nat) : PageTables ι where
  directories := t.directories
  tables := Function.update t.tables table (Function.update (t.tables table) j (some frame))

/-- An entry set where none was keeps every translation. -/
theorem PageTables.translate_setEntry {ι : Type} {t : PageTables ι} {c : ι} {u : Word}
    {table j frame p : Nat} (hnone : t.tables table j = none) (h : t.translate c u = some p) :
    (t.setEntry table j frame).translate c u = some p := by
  rw [translate] at h ⊢
  obtain ⟨table', htable, h⟩ := Option.bind_eq_some_iff.mp h
  obtain ⟨frame', hframe, h⟩ := Option.bind_eq_some_iff.mp h
  have hentry : (t.setEntry table j frame).tables table' u.tableIndex = some frame' := by
    by_cases heq : table' = table
    · subst heq
      by_cases hj : u.tableIndex = j
      · rw [hj, hnone] at hframe
        cases hframe
      · simp [setEntry, Function.update_of_ne hj, hframe]
    · simp [setEntry, Function.update_of_ne heq, hframe]
  simp only [show (t.setEntry table j frame).directories = t.directories from rfl, htable,
    Option.bind_eq_bind, Option.bind_some, hentry]
  exact h

/-- A physical memory and the page tables through which it is reached. -/
structure PagedMemory (ι : Type) where
  phys : ByteStore
  pages : PageTables ι

namespace PagedMemory

variable {ι : Type}

def translate (m : PagedMemory ι) (c : ι) (v : Word) : Option Nat := m.pages.translate c v

/-- The byte an access to `v` in the space `c` reads. -/
def byteAt (m : PagedMemory ι) (c : ι) (v : Word) : Option Byte := (m.translate c v).map m.phys

/-- The word at `v` in the space `c`. -/
def readWord (m : PagedMemory ι) (c : ι) (v : Word) : Option Word := do
  let b₀ ← m.byteAt c v
  let b₁ ← m.byteAt c (v.offset 1)
  let b₂ ← m.byteAt c (v.offset 2)
  let b₃ ← m.byteAt c (v.offset 3)
  pure (Word.ofBytes b₀ b₁ b₂ b₃)

def writeByte (m : PagedMemory ι) (c : ι) (v : Word) (b : Byte) : Option (PagedMemory ι) :=
  (m.translate c v).map fun p => { m with phys := Function.update m.phys p b }

def writeBytes (m : PagedMemory ι) (c : ι) : Word → List Byte → Option (PagedMemory ι)
  | _, [] => some m
  | v, b :: bs => (m.writeByte c v b).bind fun m' => m'.writeBytes c (v.offset 1) bs

def writeWord (m : PagedMemory ι) (c : ι) (v w : Word) : Option (PagedMemory ι) :=
  m.writeBytes c v [w.byte 0, w.byte 1, w.byte 2, w.byte 3]

/-- The `n` bytes from `lo` on are mapped, no two of them to one address. -/
structure Region (m : PagedMemory ι) (c : ι) (lo : Word) (n : Nat) : Prop where
  mapped : ∀ i, i < n → (m.translate c (lo.offset i)).isSome = true
  injective : ∀ i j, i < n → j < n →
    m.translate c (lo.offset i) = m.translate c (lo.offset j) → i = j

/-- The words from `v` on are `ws`. -/
def Holds (m : PagedMemory ι) (c : ι) : Word → List Word → Prop
  | _, [] => True
  | v, w :: ws => m.readWord c v = some w ∧ m.Holds c (v.offset 4) ws

/-- `m'` is `m` with bytes changed only in the `n` bytes from `lo` on. -/
structure WritesIn (m m' : PagedMemory ι) (c : ι) (lo : Word) (n : Nat) : Prop where
  pages : m'.pages = m.pages
  phys : ∀ p, (∀ i, i < n → m.translate c (lo.offset i) ≠ some p) → m'.phys p = m.phys p

section

variable {m m' m'' : PagedMemory ι} {c d : ι} {v lo u w : Word} {n k : Nat}

theorem translate_congr (h : m'.pages = m.pages) : m'.translate c v = m.translate c v := by
  rw [translate, translate, h]

theorem Region.congr (h : m'.pages = m.pages) (hr : m.Region c lo n) : m'.Region c lo n where
  mapped i hi := by
    rw [translate_congr h]
    exact hr.mapped i hi
  injective i j hi hj := by
    rw [translate_congr h, translate_congr h]
    exact hr.injective i j hi hj

theorem Region.mono {n' : Nat} (h : m.Region c lo n) (hle : n' ≤ n) : m.Region c lo n' where
  mapped i hi := h.mapped i (by omega)
  injective i j hi hj := h.injective i j (by omega) (by omega)

/-- A part of a region. -/
theorem Region.drop {n' : Nat} (h : m.Region c lo n) (hle : k + n' ≤ n) :
    m.Region c (lo.offset k) n' where
  mapped i hi := by
    rw [Word.offset_offset]
    exact h.mapped _ (by omega)
  injective i j hi hj heq := by
    rw [Word.offset_offset, Word.offset_offset] at heq
    have := h.injective _ _ (by omega) (by omega) heq
    omega

/-! ## What a range of writes leaves alone -/

theorem WritesIn.refl : m.WritesIn m c lo n := ⟨rfl, fun _ _ => rfl⟩

theorem WritesIn.trans (h : m.WritesIn m' c lo n) (h' : m'.WritesIn m'' c lo n) :
    m.WritesIn m'' c lo n where
  pages := h'.pages.trans h.pages
  phys p hp := by
    rw [h'.phys p fun i hi => by rw [translate_congr h.pages]; exact hp i hi, h.phys p hp]

/-- Writing in a part of a range. -/
theorem WritesIn.widen {n' : Nat} (h : m.WritesIn m' c (lo.offset k) n') (hle : k + n' ≤ n) :
    m.WritesIn m' c lo n where
  pages := h.pages
  phys p hp := h.phys p fun i hi => by
    rw [Word.offset_offset]
    exact hp _ (by omega)

/-- A byte elsewhere, in any space. -/
theorem WritesIn.byteAt (h : m.WritesIn m' c lo n)
    (hu : ∀ i, i < n → m.translate c (lo.offset i) ≠ m.translate d u) :
    m'.byteAt d u = m.byteAt d u := by
  rw [PagedMemory.byteAt, PagedMemory.byteAt, translate_congr h.pages]
  cases hp : m.translate d u with
  | none => rfl
  | some p =>
      rw [hp] at hu
      simp only [Option.map_some, h.phys p hu]

/-! ## Writing bytes -/

theorem writeByte_of_mapped {p : Nat} (h : m.translate c v = some p) (b : Byte) :
    m.writeByte c v b = some { m with phys := Function.update m.phys p b } := by
  rw [writeByte, h]
  rfl

/-- A byte written is there, and any other is as it was or the same byte again. -/
theorem writeByte_effect {b : Byte} (h : m.writeByte c v b = some m') :
    m'.byteAt c v = some b ∧ ∀ u x, m.byteAt d u = some x →
      m'.byteAt d u = some x ∨ m'.byteAt d u = some b := by
  obtain ⟨p, hp, rfl⟩ := Option.map_eq_some_iff.mp h
  refine ⟨?_, fun u x hu => ?_⟩
  · change (m.translate c v).map (Function.update m.phys p b) = some b
    rw [hp, Option.map_some, Function.update_self]
  · obtain ⟨q, hq, hx⟩ := Option.map_eq_some_iff.mp hu
    change (m.translate d u).map (Function.update m.phys p b) = some x ∨
      (m.translate d u).map (Function.update m.phys p b) = some b
    rw [hq, Option.map_some]
    by_cases heq : q = p
    · rw [heq, Function.update_self]
      exact .inr rfl
    · rw [Function.update_of_ne heq, hx]
      exact .inl rfl

/-- Writing mapped bytes: they are written, and nothing else. -/
theorem writeBytes_ok (bs : List Byte) (hr : m.Region c v bs.length) :
    ∃ m', m.writeBytes c v bs = some m' ∧ m.WritesIn m' c v bs.length ∧
      ∀ i (hi : i < bs.length), m'.byteAt c (v.offset i) = some bs[i] := by
  induction bs generalizing m v with
  | nil =>
      refine ⟨m, rfl, .refl, ?_⟩
      intro i hi
      exact absurd hi (Nat.not_lt_zero i)
  | cons b bs ih =>
      rw [List.length_cons] at hr
      obtain ⟨p, hp⟩ := Option.isSome_iff_exists.mp (hr.mapped 0 (by omega))
      rw [Word.offset_zero] at hp
      -- the first byte
      let m₁ : PagedMemory ι := { m with phys := Function.update m.phys p b }
      have hpages : m₁.pages = m.pages := rfl
      have hfirst : m.WritesIn m₁ c v (bs.length + 1) := by
        refine ⟨rfl, fun q hq => ?_⟩
        have hne := hq 0 (by omega)
        rw [Word.offset_zero, hp] at hne
        exact Function.update_of_ne (fun heq => hne (congrArg some heq.symm)) _ _
      -- the others, which do not reach it
      have hrest : m₁.Region c (v.offset 1) bs.length :=
        Region.congr hpages (hr.drop (by omega))
      obtain ⟨m', hrun, hwrites, hbytes⟩ := ih hrest
      refine ⟨m', ?_, hfirst.trans (hwrites.widen (by omega)), ?_⟩
      · rw [writeBytes, writeByte_of_mapped hp]
        exact hrun
      · intro i hi
        cases i with
        | zero =>
            have hkept := hwrites.byteAt (d := c) (u := v) fun j hj heq => by
              rw [Word.offset_offset, translate_congr hpages, translate_congr hpages] at heq
              have hsame := hr.injective (1 + j) 0 (by omega) (by omega)
                (by rw [Word.offset_zero]; exact heq)
              omega
            rw [Word.offset_zero, hkept, PagedMemory.byteAt, translate_congr hpages, hp]
            exact congrArg some (Function.update_self ..)
        | succ i =>
            have hbyte := hbytes i (by simpa using hi)
            rw [Word.offset_offset, Nat.add_comm 1 i] at hbyte
            exact hbyte

theorem writeBytes_pages {bs : List Byte} (h : m.writeBytes c v bs = some m') :
    m'.pages = m.pages := by
  induction bs generalizing m v with
  | nil => rw [← Option.some.inj h]
  | cons b bs ih =>
      obtain ⟨m₁, hbyte, hrest⟩ := Option.bind_eq_some_iff.mp h
      obtain ⟨p, _, rfl⟩ := Option.map_eq_some_iff.mp hbyte
      have hpages := ih hrest
      exact hpages

/-! ## Words -/

/-- A word depends on its four bytes. -/
theorem readWord_congr (h : ∀ i, i < 4 → m'.byteAt d (v.offset i) = m.byteAt c (v.offset i)) :
    m'.readWord d v = m.readWord c v := by
  have h₀ := h 0 (by decide)
  rw [Word.offset_zero] at h₀
  rw [readWord, readWord, h₀, h 1 (by decide), h 2 (by decide), h 3 (by decide)]

/-- Writing a word in a region. -/
theorem writeWord_ok (hr : m.Region c v 4) (w : Word) :
    ∃ m', m.writeWord c v w = some m' ∧ m.WritesIn m' c v 4 ∧ m'.readWord c v = some w := by
  obtain ⟨m', hrun, hwrites, hbytes⟩ :=
    writeBytes_ok [w.byte 0, w.byte 1, w.byte 2, w.byte 3] hr
  refine ⟨m', hrun, hwrites, ?_⟩
  have h₀ := hbytes 0 (by simp)
  have h₁ := hbytes 1 (by simp)
  have h₂ := hbytes 2 (by simp)
  have h₃ := hbytes 3 (by simp)
  rw [Word.offset_zero] at h₀
  rw [readWord, h₀, h₁, h₂, h₃]
  exact congrArg some w.ofBytes_byte

/-! ## Ranges of words -/

theorem Holds.congr {ws : List Word} (h : m.Holds c v ws)
    (hbytes : ∀ i, i < 4 * ws.length → m'.byteAt d (v.offset i) = m.byteAt c (v.offset i)) :
    m'.Holds d v ws := by
  induction ws generalizing v with
  | nil => trivial
  | cons w ws ih =>
      rw [List.length_cons] at hbytes
      refine ⟨?_, ih h.2 fun i hi => ?_⟩
      · rw [readWord_congr fun i hi => hbytes i (by omega)]
        exact h.1
      · rw [Word.offset_offset]
        exact hbytes _ (by omega)

/-- The first words of a range. -/
theorem Holds.left {ws ws' : List Word} (h : m.Holds c v (ws ++ ws')) : m.Holds c v ws := by
  induction ws generalizing v with
  | nil => trivial
  | cons w ws ih => exact ⟨h.1, ih h.2⟩

/-- The last words of a range. -/
theorem Holds.right {ws ws' : List Word} (h : m.Holds c v (ws ++ ws')) :
    m.Holds c (v.offset (4 * ws.length)) ws' := by
  induction ws generalizing v with
  | nil => simpa using h
  | cons w ws ih =>
      have hrest := ih h.2
      rw [Word.offset_offset, show 4 + 4 * ws.length = 4 * (w :: ws).length by
        rw [List.length_cons]; omega] at hrest
      exact hrest

/-- The words of a range, by index. -/
theorem holds_iff {ws : List Word} :
    m.Holds c v ws ↔ ∀ j (hj : j < ws.length), m.readWord c (v.offset (4 * j)) = some ws[j] := by
  induction ws generalizing v with
  | nil => exact ⟨fun _ j hj => absurd hj (Nat.not_lt_zero j), fun _ => trivial⟩
  | cons w ws ih =>
      rw [Holds, ih]
      constructor
      · rintro ⟨hfirst, hrest⟩ j hj
        cases j with
        | zero => simpa using hfirst
        | succ j =>
            have hword := hrest j (by simpa using hj)
            rw [Word.offset_offset, show 4 + 4 * j = 4 * (j + 1) by omega] at hword
            exact hword
      · intro h
        have hfirst := h 0 (Nat.succ_pos _)
        rw [Nat.mul_zero, Word.offset_zero] at hfirst
        refine ⟨hfirst, fun j hj => ?_⟩
        rw [Word.offset_offset, show 4 + 4 * j = 4 * (j + 1) by omega]
        exact h (j + 1) (by simpa using hj)

/-- Pushing a word below a range. -/
theorem push_ok {ws : List Word} (hr : m.Region c lo n) (hlen : k + 4 + 4 * ws.length ≤ n)
    (h : m.Holds c (lo.offset (k + 4)) ws) (w : Word) :
    ∃ m', m.writeWord c (lo.offset k) w = some m' ∧ m.WritesIn m' c (lo.offset k) 4 ∧
      m'.Holds c (lo.offset k) (w :: ws) := by
  have hplace : m.Region c (lo.offset k) 4 := hr.drop (by omega)
  obtain ⟨m', hrun, hwrites, hword⟩ := writeWord_ok hplace w
  refine ⟨m', hrun, hwrites, hword, ?_⟩
  rw [Word.offset_offset]
  refine h.congr fun i hi => hwrites.byteAt fun j hj heq => ?_
  rw [Word.offset_offset, Word.offset_offset] at heq
  have := hr.injective _ _ (by omega) (by omega) heq
  omega

/-- Overwriting word `j` of a range. -/
theorem set_ok {ws : List Word} (hr : m.Region c v (4 * ws.length)) (h : m.Holds c v ws) {j : Nat}
    (hj : j < ws.length) (w : Word) :
    ∃ m', m.writeWord c (v.offset (4 * j)) w = some m' ∧
      m.WritesIn m' c v (4 * ws.length) ∧ m'.Holds c v (ws.set j w) := by
  have hplace : m.Region c (v.offset (4 * j)) 4 := hr.drop (by omega)
  obtain ⟨m', hrun, hwrites, hword⟩ := writeWord_ok hplace w
  refine ⟨m', hrun, hwrites.widen (by omega), holds_iff.mpr fun i hi => ?_⟩
  rw [List.length_set] at hi
  by_cases heq : j = i
  · subst heq
    rw [List.getElem_set_self]
    exact hword
  · rw [List.getElem_set_ne heq, ← holds_iff.mp h i hi]
    refine readWord_congr fun a ha => hwrites.byteAt fun b hb hsame => ?_
    rw [Word.offset_offset, Word.offset_offset] at hsame
    have := hr.injective _ _ (by omega) (by omega) hsame
    omega

end
end PagedMemory
end MyOs
