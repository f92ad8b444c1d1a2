import Mathlib.Data.List.Chain
import Mathlib.Data.List.Nodup
import Mathlib.Logic.Function.Basic
import Mathlib.Tactic.Common

/-!
# Linked lists in a heap

`Linked next l`: each cell of `l` links to the one after it. A ring is a list
that closes on its first cell, `Linked next (l ++ [first])`. The lemmas are the
three edits of such lists (cutting a cell out, putting one in, closing a ring)
and the frame rule: a list reads the links of its own cells only.

`Chained next first l` is the list from a head pointer to the first missing link, with the
edits of such lists (a cell cut out, a cell put behind the last), and `Backed prev` the links
in the other direction.
-/

namespace MyOs

variable {α : Type}

/-- Each cell of the list links to the one after it. -/
def Linked (next : α → Option α) (l : List α) : Prop :=
  l.IsChain fun a b => next a = some b

namespace Linked

variable {next next' : α → Option α}

@[simp] theorem nil : Linked next [] := List.isChain_nil

@[simp] theorem singleton (a : α) : Linked next [a] := List.isChain_singleton a

@[simp] theorem cons_cons {a b : α} {l : List α} :
    Linked next (a :: b :: l) ↔ next a = some b ∧ Linked next (b :: l) :=
  List.isChain_cons_cons

/-- A list splits at any of its cells. -/
theorem split {c : α} {l₁ l₂ : List α} :
    Linked next (l₁ ++ c :: l₂) ↔ Linked next (l₁ ++ [c]) ∧ Linked next (c :: l₂) :=
  List.isChain_split

/-- Frame rule: only the links of the cells before the last are read. -/
theorem congr {l : List α} (h : Linked next l)
    (agree : ∀ a ∈ l.dropLast, next' a = next a) : Linked next' l := by
  induction l with
  | nil => exact nil
  | cons a rest ih =>
      cases rest with
      | nil => exact singleton a
      | cons b rest =>
          rw [cons_cons] at h ⊢
          simp only [List.dropLast_cons_cons, List.mem_cons] at agree
          exact ⟨(agree a (.inl rfl)).trans h.1, ih h.2 fun c hc => agree c (.inr hc)⟩

/-- The link of a cell that has a successor in the list. -/
theorem next_eq {a b : α} {u v : List α} (h : Linked next (u ++ a :: b :: v)) :
    next a = some b :=
  (cons_cons.mp (split.mp h).2).1

/-- Cutting `x` out: its predecessor takes over its link. -/
theorem unlink {p x q : α} {pre post : List α}
    (h : Linked next (pre ++ p :: x :: q :: post)) (hp : next' p = some q)
    (hpre : ∀ a ∈ pre, next' a = next a) (hpost : ∀ a ∈ (q :: post).dropLast, next' a = next a) :
    Linked next' (pre ++ p :: q :: post) := by
  obtain ⟨h1, h2⟩ := split.mp h
  refine split.mpr ⟨h1.congr fun a ha => hpre a (by simpa using ha), ?_⟩
  exact cons_cons.mpr ⟨hp, (cons_cons.mp (cons_cons.mp h2).2).2.congr hpost⟩

/-- Putting `x` in before `q`: the predecessor links to `x` and `x` to `q`. -/
theorem insert {p x q : α} {pre post : List α} (h : Linked next (pre ++ p :: q :: post))
    (hp : next' p = some x) (hx : next' x = some q) (hpre : ∀ a ∈ pre, next' a = next a)
    (hpost : ∀ a ∈ (q :: post).dropLast, next' a = next a) :
    Linked next' (pre ++ p :: x :: q :: post) := by
  obtain ⟨h1, h2⟩ := split.mp h
  refine split.mpr ⟨h1.congr fun a ha => hpre a (by simpa using ha), ?_⟩
  exact cons_cons.mpr ⟨hp, cons_cons.mpr ⟨hx, (cons_cons.mp h2).2.congr hpost⟩⟩

/-- Lists of one length with the same first cell follow the same links. -/
theorem unique {l l' : List α} {c : α} (h : Linked next (l ++ [c])) (h' : Linked next (l' ++ [c]))
    {first : α} (hfirst : l.head? = some first) (hfirst' : l'.head? = some first)
    (hlength : l.length = l'.length) : l = l' := by
  induction l generalizing l' first with
  | nil => cases hfirst
  | cons a rest ih =>
      cases l' with
      | nil => cases hfirst'
      | cons b rest' =>
          obtain rfl : a = first := Option.some.inj hfirst
          obtain rfl : b = a := Option.some.inj hfirst'
          cases rest with
          | nil =>
              obtain rfl : rest' = [] := List.eq_nil_of_length_eq_zero (by simpa using hlength.symm)
              rfl
          | cons c rest =>
              cases rest' with
              | nil => simp at hlength
              | cons c' rest' =>
                  obtain ⟨hc, hrest⟩ := cons_cons.mp h
                  obtain ⟨hc', hrest'⟩ := cons_cons.mp h'
                  obtain rfl : c' = c := Option.some.inj (hc'.symm.trans hc)
                  rw [ih hrest hrest' rfl rfl (Nat.succ.inj hlength)]

/-- The links of all the cells before the last, in order. -/
theorem map_next {l : List α} {c : α} (h : Linked next (l ++ [c])) :
    l.map next = (l ++ [c]).tail.map some := by
  induction l with
  | nil => rfl
  | cons a rest ih =>
      cases rest with
      | nil =>
          have hc : next a = some c := (cons_cons.mp h).1
          simp [hc]
      | cons b rest =>
          obtain ⟨hb, hrest⟩ := cons_cons.mp h
          simpa [hb] using ih hrest

/-- In a ring without repetition each cell has one predecessor. -/
theorem next_inj {l : List α} {first : α} (h : Linked next (l ++ [first]))
    (hfirst : l.head? = some first) (hnodup : l.Nodup) {a b : α} (ha : a ∈ l) (hb : b ∈ l)
    (heq : next a = next b) : a = b := by
  obtain ⟨rest, rfl⟩ := List.head?_eq_some_iff.mp hfirst
  have hlinks : ((first :: rest).map next).Nodup := by
    rw [h.map_next, List.cons_append, List.tail_cons]
    have hperm : (rest ++ [first]).Nodup :=
      (List.perm_append_singleton first rest).nodup_iff.mpr hnodup
    exact hperm.map fun _ _ => Option.some.inj
  exact List.inj_on_of_nodup_map hlinks ha hb heq

/-- A ring read from another of its cells, once around. -/
theorem rotate {c first : α} {pre post : List α} (h : Linked next (pre ++ c :: post ++ [first]))
    (hfirst : (pre ++ [c]).head? = some first) : Linked next (c :: (post ++ pre ++ [c])) := by
  cases pre with
  | nil =>
      obtain rfl : c = first := by simpa using hfirst
      simpa using h
  | cons p rest =>
      obtain rfl : p = first := by simpa using hfirst
      have hcut : Linked next ((p :: rest) ++ c :: (post ++ [p])) := by simpa using h
      obtain ⟨hpre, hpost⟩ := split.mp hcut
      have hjoin : Linked next ((c :: post) ++ p :: (rest ++ [c])) := split.mpr ⟨hpost, hpre⟩
      simpa using hjoin

end Linked

/-- The list that starts at `first` and ends at a cell without a link. -/
def Chained (next : α → Option α) : Option α → List α → Prop
  | first, [] => first = none
  | first, a :: rest => first = some a ∧ Chained next (next a) rest

namespace Chained

variable {next next' : α → Option α} {first : Option α} {l l' : List α}

@[simp] theorem nil : Chained next first [] ↔ first = none := Iff.rfl

@[simp] theorem cons {a : α} :
    Chained next first (a :: l) ↔ first = some a ∧ Chained next (next a) l := Iff.rfl

theorem head (h : Chained next first l) : first = l.head? := by
  cases l with
  | nil => exact h
  | cons a rest => exact h.1

/-- Frame rule: only the links of the list's own cells are read. -/
theorem congr (h : Chained next first l) (agree : ∀ a ∈ l, next' a = next a) :
    Chained next' first l := by
  induction l generalizing first with
  | nil => exact h
  | cons a rest ih =>
      refine ⟨h.1, ?_⟩
      rw [agree a (List.mem_cons_self ..)]
      exact ih h.2 fun b hb => agree b (List.mem_cons_of_mem a hb)

/-- A cell links to the one after it in the list. -/
theorem next_eq {a : α} {pre post : List α} (h : Chained next first (pre ++ a :: post)) :
    next a = post.head? := by
  induction pre generalizing first with
  | nil => exact head h.2
  | cons b pre ih => exact ih h.2

/-- Cutting a cell out: the one before it, or the head pointer, takes over its link. -/
theorem erase {first' : Option α} {a : α} {pre post : List α}
    (h : Chained next first (pre ++ a :: post))
    (hfirst : first' = if pre = [] then next a else first)
    (hlast : ∀ p, pre.getLast? = some p → next' p = next a)
    (hkeep : ∀ b ∈ pre.dropLast ++ post, next' b = next b) :
    Chained next' first' (pre ++ post) := by
  induction pre generalizing first first' with
  | nil =>
      obtain rfl : first' = next a := hfirst
      exact congr h.2 fun b hb => hkeep b (by simpa using hb)
  | cons b pre ih =>
      obtain rfl : first' = first := hfirst
      refine ⟨h.1, ih h.2 ?_ ?_ ?_⟩
      · split
        · next hnil => exact hlast b (by simp [hnil])
        · next hcons =>
            refine hkeep b ?_
            simp [List.dropLast_cons_of_ne_nil hcons]
      · intro p hp
        refine hlast p ?_
        cases pre with
        | nil => cases hp
        | cons c pre => rwa [List.getLast?_cons_cons]
      · intro c hc
        cases pre with
        | nil => exact hkeep c (by simpa using hc)
        | cons d pre =>
            refine hkeep c ?_
            rw [List.dropLast_cons_cons, List.cons_append]
            exact List.mem_cons_of_mem b hc

/-- Putting a cell behind the last one: that one, or the head pointer, links to it. -/
theorem concat {first' : Option α} {a : α} (h : Chained next first l)
    (hfirst : first' = if l = [] then some a else first)
    (hlast : ∀ p, l.getLast? = some p → next' p = some a) (hnew : next' a = none)
    (hkeep : ∀ b ∈ l.dropLast, next' b = next b) : Chained next' first' (l ++ [a]) := by
  induction l generalizing first first' with
  | nil => exact ⟨hfirst, hnew⟩
  | cons b rest ih =>
      obtain rfl : first' = first := hfirst
      refine ⟨h.1, ih h.2 ?_ ?_ ?_⟩
      · split
        · next hnil => exact hlast b (by simp [hnil])
        · next hcons =>
            refine hkeep b ?_
            simp [List.dropLast_cons_of_ne_nil hcons]
      · intro p hp
        refine hlast p ?_
        cases rest with
        | nil => cases hp
        | cons c rest => rwa [List.getLast?_cons_cons]
      · intro c hc
        cases rest with
        | nil => cases hc
        | cons d rest => exact hkeep c (List.mem_cons_of_mem b hc)

/-- There is one list from a head pointer. -/
theorem unique (h : Chained next first l) (h' : Chained next first l') : l = l' := by
  induction l generalizing first l' with
  | nil =>
      cases l' with
      | nil => rfl
      | cons b rest' => cases h.symm.trans h'.1
  | cons a rest ih =>
      cases l' with
      | nil => cases h'.symm.trans h.1
      | cons b rest' =>
          obtain rfl : a = b := Option.some.inj (h.1.symm.trans h'.1)
          rw [ih h.2 h'.2]

/-- The list from one of its cells on. -/
theorem drop {a : α} {pre post : List α} (h : Chained next first (pre ++ a :: post)) :
    Chained next (some a) (a :: post) := by
  induction pre generalizing first with
  | nil => exact ⟨rfl, h.2⟩
  | cons b pre ih => exact ih h.2

/-- Cells that link to their neighbours, by index. -/
theorem of_range {f : Nat → α} (m : Nat) :
    ∀ k, (∀ j, k ≤ j → j < k + m → next (f j) = some (f (j + 1))) → next (f (k + m)) = none →
      Chained next (some (f k)) ((List.range' k (m + 1)).map f) := by
  induction m with
  | zero =>
      intro k _ hend
      exact ⟨rfl, hend⟩
  | succ m ih =>
      intro k hlink hend
      rw [List.range'_succ, List.map_cons]
      refine ⟨rfl, ?_⟩
      rw [hlink k (Nat.le_refl k) (by omega)]
      refine ih (k + 1) (fun j hj hjm => hlink j (by omega) (by omega)) ?_
      rwa [Nat.add_right_comm k 1 m]

/-- A list that ends visits no cell twice. -/
theorem nodup (h : Chained next first l) : l.Nodup := by
  induction l generalizing first with
  | nil => exact List.nodup_nil
  | cons a rest ih =>
      refine List.nodup_cons.mpr ⟨fun hmem => ?_, ih h.2⟩
      obtain ⟨pre, post, rfl⟩ := List.append_of_mem hmem
      -- the list from `a` would be one of its own proper parts
      have hagain : Chained next (some a) (a :: post) := drop h.2
      have heq := unique h (h.1 ▸ hagain)
      have hlen := congrArg List.length heq
      simp at hlen
      omega

end Chained

/-- Each cell links back to the one before it, the first one to `before`. -/
def Backed (prev : α → Option α) : Option α → List α → Prop
  | _, [] => True
  | before, a :: rest => prev a = before ∧ Backed prev (some a) rest

namespace Backed

variable {prev prev' : α → Option α} {before : Option α} {l : List α}

@[simp] theorem cons {a : α} :
    Backed prev before (a :: l) ↔ prev a = before ∧ Backed prev (some a) l := Iff.rfl

theorem congr (h : Backed prev before l) (agree : ∀ a ∈ l, prev' a = prev a) :
    Backed prev' before l := by
  induction l generalizing before with
  | nil => trivial
  | cons a rest ih =>
      refine ⟨(agree a (List.mem_cons_self ..)).trans h.1, ?_⟩
      exact ih h.2 fun b hb => agree b (List.mem_cons_of_mem a hb)

/-- A cell links back to the one before it in the list. -/
theorem prev_eq {a : α} {pre post : List α} (h : Backed prev before (pre ++ a :: post)) :
    prev a = if pre = [] then before else pre.getLast? := by
  induction pre generalizing before with
  | nil => exact h.1
  | cons b pre ih =>
      rw [ih h.2, if_neg (List.cons_ne_nil b pre)]
      cases pre with
      | nil => rfl
      | cons c pre => rw [if_neg (List.cons_ne_nil c pre), List.getLast?_cons_cons]

/-- Where a cell links to, there is a link back. -/
theorem of_next {next : α → Option α} {first : Option α} {a b : α} (h : Backed prev before l)
    (hlinks : Chained next first l) (ha : a ∈ l) (hab : next a = some b) : prev b = some a := by
  obtain ⟨pre, post, rfl⟩ := List.append_of_mem ha
  obtain ⟨post, rfl⟩ := List.head?_eq_some_iff.mp (hlinks.next_eq.symm.trans hab)
  have hback : Backed prev before ((pre ++ [a]) ++ b :: post) := by simpa using h
  rw [hback.prev_eq, if_neg (by simp)]
  simp

/-- Cutting a cell out: the one after it takes over its link back. -/
theorem erase {a : α} {pre post : List α} (h : Backed prev before (pre ++ a :: post))
    (hnext : ∀ q, post.head? = some q → prev' q = prev a)
    (hkeep : ∀ b ∈ pre ++ post.tail, prev' b = prev b) : Backed prev' before (pre ++ post) := by
  induction pre generalizing before with
  | nil =>
      cases post with
      | nil => trivial
      | cons q post =>
          refine ⟨(hnext q rfl).trans h.1, h.2.2.congr fun b hb => hkeep b ?_⟩
          simpa using hb
  | cons b pre ih =>
      refine ⟨(hkeep b (List.mem_cons_self ..)).trans h.1, ih h.2 fun c hc => hkeep c ?_⟩
      exact List.mem_cons_of_mem b hc

end Backed
end MyOs
