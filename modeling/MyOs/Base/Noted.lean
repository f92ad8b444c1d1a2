import MyOs.Base.Prog

/-!
# Programs with notes

A program over `σ` can be run with notes `ρ` beside its state. `noting x f` runs `x` and
adds to the notes what `f` makes of its result; `Erases x y` says that `x` is `y` when the
notes are left out, so that a property of the notes is one of the runs of `y`.
-/

namespace MyOs
namespace Prog

variable {σ ρ α β : Type}

/-- `x`, noting `f` of its result and of the state it leaves. -/
def noting (x : Prog σ α) (f : α → σ → ρ → ρ) : Prog (σ × ρ) α := fun t =>
  match x t.1 with
  | .ok (a, s) => .ok (a, (s, f a s t.2))
  | .error e => .error e

/-- `x`, with nothing noted. -/
def silent (x : Prog σ α) : Prog (σ × ρ) α := x.noting fun _ _ r => r

theorem noting_of_ok {x : Prog σ α} {f : α → σ → ρ → ρ} {s s' : σ} {a : α}
    (h : x s = .ok (a, s')) (r : ρ) : noting x f (s, r) = .ok (a, (s', f a s' r)) := by
  simp only [noting, h]

theorem silent_of_ok {x : Prog σ α} {s s' : σ} {a : α} (h : x s = .ok (a, s')) (r : ρ) :
    silent x (s, r) = .ok (a, (s', r)) := noting_of_ok h r

theorem noting_eq_ok {x : Prog σ α} {f : α → σ → ρ → ρ} {s s' : σ} {r r' : ρ} {a : α}
    (h : noting x f (s, r) = .ok (a, (s', r'))) : x s = .ok (a, s') ∧ r' = f a s' r := by
  unfold noting at h
  cases hx : x s with
  | error e =>
      simp only [hx] at h
      cases h
  | ok t =>
      simp only [hx] at h
      cases h
      exact ⟨rfl, rfl⟩

theorem silent_eq_ok {x : Prog σ α} {s s' : σ} {r r' : ρ} {a : α}
    (h : silent x (s, r) = .ok (a, (s', r'))) : x s = .ok (a, s') ∧ r' = r := noting_eq_ok h

theorem noting_triple {x : Prog σ α} {f : α → σ → ρ → ρ} {P : σ × ρ → Prop}
    {Q : α → σ × ρ → Prop}
    (h : ∀ s r, P (s, r) → ∀ a s', x s = .ok (a, s') → Q a (s', f a s' r)) :
    Triple P (noting x f) Q := by
  rintro ⟨s, r⟩ hP a ⟨s', r'⟩ hrun
  obtain ⟨hx, rfl⟩ := noting_eq_ok hrun
  exact h s r hP a s' hx

/-- Without its notes `x` is `y`. -/
def Erases (x : Prog (σ × ρ) α) (y : Prog σ α) : Prop :=
  ∀ t, match x t with
    | .ok (a, t') => y t.1 = .ok (a, t'.1)
    | .error e => y t.1 = .error e

namespace Erases

theorem pure (a : α) : Erases (ρ := ρ) (σ := σ) (pure a) (pure a) := fun _ => rfl

theorem stop (e : Stop) : Erases (ρ := ρ) (σ := σ) (α := α) (stop e) (stop e) := fun _ => rfl

theorem noting (x : Prog σ α) (f : α → σ → ρ → ρ) : Erases (noting x f) x := by
  intro t
  rw [Prog.noting]
  cases x t.1 <;> rfl

theorem bind {x : Prog (σ × ρ) α} {y : Prog σ α} {f : α → Prog (σ × ρ) β} {g : α → Prog σ β}
    (hx : Erases x y) (hf : ∀ a, Erases (f a) (g a)) : Erases (x >>= f) (y >>= g) := by
  intro t
  have hrun := hx t
  cases hxt : x t with
  | error e =>
      rw [hxt] at hrun
      rw [bind_of_error hxt]
      exact bind_of_error hrun
  | ok r =>
      rw [hxt] at hrun
      rw [bind_of_ok hxt, bind_of_ok hrun]
      exact hf r.1 r.2

theorem ite {c : Prop} [Decidable c] {x x' : Prog (σ × ρ) α} {y y' : Prog σ α}
    (h : Erases x y) (h' : Erases x' y') :
    Erases (if c then x else x') (if c then y else y') := by
  split
  · exact h
  · exact h'

theorem forLoop {body : Nat → Prog (σ × ρ) Unit} {body' : Nat → Prog σ Unit}
    (h : ∀ i, Erases (body i) (body' i)) (start n : Nat) :
    Erases (forLoop body start n) (forLoop body' start n) := by
  induction n generalizing start with
  | zero => exact pure ()
  | succ n ih => exact bind (h start) fun _ => ih (start + 1)

/-- A run of `y` is one of `x`, with some notes. -/
theorem run {x : Prog (σ × ρ) α} {y : Prog σ α} (h : Erases x y) {s s' : σ} {a : α}
    (hy : y s = .ok (a, s')) (r : ρ) : ∃ r', x (s, r) = .ok (a, (s', r')) := by
  have hrun := h (s, r)
  cases hx : x (s, r) with
  | error e =>
      rw [hx] at hrun
      cases hrun.symm.trans hy
  | ok t =>
      rw [hx] at hrun
      cases hrun.symm.trans hy
      exact ⟨t.2.2, rfl⟩

end Erases
end Prog
end MyOs
