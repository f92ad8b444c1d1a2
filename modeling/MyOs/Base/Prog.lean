/-!
# Programs over a state

A program reads and changes a state `σ` and either returns or stops the
machine for good. `Triple P x Q` is partial correctness: started in a state
with `P`, whatever `x` returns satisfies `Q`. The rules below are the ones for
sequencing, branching and weakening; a stop satisfies every postcondition.
-/

namespace MyOs

/-- Why a program never returns. -/
inductive Stop
  | panic (msg : String)
  | assertion (expr : String)
  | badAccess (addr : Nat)
  | divideError
  /-- no return within the steps allowed -/
  | outOfFuel
deriving DecidableEq, Repr

/-- A program over the state `σ`. -/
def Prog (σ α : Type) : Type := σ → Except Stop (α × σ)

namespace Prog

variable {σ α β : Type}

instance : Monad (Prog σ) where
  pure a := fun s => .ok (a, s)
  bind x f := fun s =>
    match x s with
    | .ok (a, s') => f a s'
    | .error e => .error e

/-- The current state. -/
def get : Prog σ σ := fun s => .ok (s, s)

/-- Change the state. -/
def modify (f : σ → σ) : Prog σ Unit := fun s => .ok ((), f s)

/-- Stop for good. -/
def stop (e : Stop) : Prog σ α := fun _ => .error e

@[simp] theorem pure_apply (a : α) (s : σ) : (pure a : Prog σ α) s = .ok (a, s) := rfl

@[simp] theorem get_apply (s : σ) : (get : Prog σ σ) s = .ok (s, s) := rfl

@[simp] theorem modify_apply (f : σ → σ) (s : σ) : modify f s = .ok ((), f s) := rfl

@[simp] theorem stop_apply (e : Stop) (s : σ) : (stop e : Prog σ α) s = .error e := rfl

theorem bind_of_ok {x : Prog σ α} {f : α → Prog σ β} {s s' : σ} {a : α}
    (h : x s = .ok (a, s')) : (x >>= f) s = f a s' := by
  change (match x s with | .ok (a, s') => f a s' | .error e => .error e) = _
  rw [h]

theorem bind_of_error {x : Prog σ α} {f : α → Prog σ β} {s : σ} {e : Stop}
    (h : x s = .error e) : (x >>= f) s = .error e := by
  change (match x s with | .ok (a, s') => f a s' | .error e => .error e) = _
  rw [h]

/-- Two first parts that do the same from `s` may stand for each other. -/
theorem bind_congr_apply {x y : Prog σ α} {f : α → Prog σ β} {s : σ} (h : x s = y s) :
    (x >>= f) s = (y >>= f) s := by
  change (match x s with | .ok (a, s') => f a s' | .error e => .error e) =
    (match y s with | .ok (a, s') => f a s' | .error e => .error e)
  rw [h]

@[simp] theorem pure_bind_apply (a : α) (f : α → Prog σ β) (s : σ) :
    ((pure a : Prog σ α) >>= f) s = f a s := rfl

@[simp] theorem get_bind_apply (f : σ → Prog σ β) (s : σ) :
    ((get : Prog σ σ) >>= f) s = f s s := rfl

@[simp] theorem modify_bind_apply (g : σ → σ) (f : Unit → Prog σ β) (s : σ) :
    (modify g >>= f) s = f () (g s) := rfl

@[simp] theorem stop_bind_apply (e : Stop) (f : α → Prog σ β) (s : σ) :
    ((stop e : Prog σ α) >>= f) s = .error e := rfl

@[simp] theorem bind_assoc_apply {γ : Type} (x : Prog σ α) (f : α → Prog σ β)
    (g : β → Prog σ γ) (s : σ) :
    ((x >>= f) >>= g) s = (x >>= fun a => f a >>= g) s := by
  change (match (match x s with | .ok (a, s') => f a s' | .error e => .error e) with
    | .ok (a, s') => g a s' | .error e => .error e) =
    (match x s with | .ok (a, s') => (f a >>= g) s' | .error e => .error e)
  cases x s with
  | error e => rfl
  | ok r => rfl

@[simp] theorem ite_apply (c : Prop) [Decidable c] (x y : Prog σ α) (s : σ) :
    (if c then x else y) s = if c then x s else y s := by
  split <;> rfl

/-- A sequence returns when its first part returns and the rest does from
there. -/
theorem bind_eq_ok {x : Prog σ α} {f : α → Prog σ β} {s t : σ} {b : β} :
    (x >>= f) s = .ok (b, t) ↔ ∃ a s', x s = .ok (a, s') ∧ f a s' = .ok (b, t) := by
  change (match x s with | .ok (a, s') => f a s' | .error e => .error e) = _ ↔ _
  cases hx : x s with
  | error e => simp
  | ok r =>
      obtain ⟨a, s'⟩ := r
      constructor
      · intro h
        exact ⟨a, s', rfl, h⟩
      · rintro ⟨_, _, heq, h⟩
        cases heq
        exact h

/-- A program on a part of the state: `part` reads the part and `put` puts it
back. -/
def zoom {τ : Type} (part : τ → σ) (put : σ → τ → τ) (x : Prog σ α) : Prog τ α := fun t =>
  match x (part t) with
  | .ok (a, s) => .ok (a, put s t)
  | .error e => .error e

theorem zoom_eq_ok {τ : Type} {part : τ → σ} {put : σ → τ → τ} {x : Prog σ α} {t t' : τ}
    {a : α} : zoom part put x t = .ok (a, t') ↔ ∃ s, x (part t) = .ok (a, s) ∧ t' = put s t := by
  unfold zoom
  cases hx : x (part t) with
  | error e => simp
  | ok r =>
      obtain ⟨b, s⟩ := r
      constructor
      · intro h
        cases h
        exact ⟨s, rfl, rfl⟩
      · rintro ⟨_, heq, rfl⟩
        cases heq
        rfl

/-- The state `x` leaves, when it returns. -/
def stateAfter (x : Prog σ α) (s : σ) : σ :=
  match x s with
  | .ok (_, s') => s'
  | .error _ => s

theorem stateAfter_of_ok {x : Prog σ α} {s s' : σ} {a : α} (h : x s = .ok (a, s')) :
    x.stateAfter s = s' := by
  rw [stateAfter, h]

/-- What `x` returns, if it does. -/
def returned (x : Prog σ α) (s : σ) : Option α :=
  match x s with
  | .ok (a, _) => some a
  | .error _ => none

theorem eq_of_returned {x : Prog σ α} {s : σ} {a : α} (h : returned x s = some a) :
    x s = .ok (a, stateAfter x s) := by
  unfold returned at h
  unfold stateAfter
  cases hx : x s with
  | error e =>
      rw [hx] at h
      cases h
  | ok r =>
      obtain ⟨b, s'⟩ := r
      rw [hx] at h
      obtain rfl : b = a := Option.some.inj h
      rfl

/-- `x` returns true. -/
def returnsTrue (x : Prog σ Bool) (s : σ) : Bool :=
  match x s with
  | .ok (b, _) => b
  | .error _ => false

theorem eq_of_returnsTrue {x : Prog σ Bool} {s : σ} (h : returnsTrue x s = true) :
    x s = .ok (true, stateAfter x s) := by
  unfold returnsTrue at h
  unfold stateAfter
  cases hx : x s with
  | error e =>
      rw [hx] at h
      cases h
  | ok r =>
      obtain ⟨b, s'⟩ := r
      rw [hx] at h
      obtain rfl : b = true := h
      rfl

/-- `for (i = start; i < start + n; i++) body(i);` -/
def forLoop (body : Nat → Prog σ Unit) : Nat → Nat → Prog σ Unit
  | _, 0 => pure ()
  | start, n + 1 => do
      body start
      forLoop body (start + 1) n

/-- A loop returns when each turn does, and keeps what each turn keeps. -/
theorem forLoop_ok {body : Nat → Prog σ Unit} {P : Nat → σ → Prop} {stop : Nat}
    (turn : ∀ i s, i < stop → P i s → ∃ s', body i s = .ok ((), s') ∧ P (i + 1) s') :
    ∀ n start s, start + n = stop → P start s →
      ∃ s', forLoop body start n s = .ok ((), s') ∧ P stop s' := by
  intro n
  induction n with
  | zero =>
      intro start s hn hs
      rw [Nat.add_zero] at hn
      exact ⟨s, rfl, hn ▸ hs⟩
  | succ n ih =>
      intro start s hn hs
      obtain ⟨s₁, hrun, hs₁⟩ := turn start s (by omega) hs
      obtain ⟨s', hrest, hs'⟩ := ih (start + 1) s₁ (by omega) hs₁
      refine ⟨s', ?_, hs'⟩
      rw [forLoop, bind_of_ok hrun, hrest]

/-! ## Partial correctness -/

/-- Whatever `x` returns from a state with `P` satisfies `Q`. -/
def Triple (P : σ → Prop) (x : Prog σ α) (Q : α → σ → Prop) : Prop :=
  ∀ s, P s → ∀ a s', x s = .ok (a, s') → Q a s'

namespace Triple

variable {P : σ → Prop} {Q : α → σ → Prop} {R : β → σ → Prop}

theorem pure {a : α} (h : ∀ s, P s → Q a s) : Triple P (pure a) Q := by
  intro s hs b s' heq
  cases heq
  exact h s hs

theorem get {Q : σ → σ → Prop} (h : ∀ s, P s → Q s s) : Triple P Prog.get Q := by
  intro s hs b s' heq
  cases heq
  exact h s hs

theorem modify {f : σ → σ} {Q : Unit → σ → Prop} (h : ∀ s, P s → Q () (f s)) :
    Triple P (Prog.modify f) Q := by
  intro s hs b s' heq
  cases heq
  exact h s hs

theorem stop {e : Stop} : Triple P (Prog.stop e : Prog σ α) Q := by
  intro s _ b s' heq
  cases heq

theorem bind {x : Prog σ α} {f : α → Prog σ β} (hx : Triple P x Q)
    (hf : ∀ a, Triple (Q a) (f a) R) : Triple P (x >>= f) R := by
  intro s hs b s' heq
  obtain ⟨a, t, hxt, hft⟩ := bind_eq_ok.mp heq
  exact hf a t (hx s hs a t hxt) b s' hft

/-- Reading the state: the rest is proved for every state read. -/
theorem read {f : σ → Prog σ β} (hf : ∀ s, P s → Triple P (f s) R) :
    Triple P (Prog.get >>= f) R :=
  fun s hs b s' heq => hf s hs s hs b s' heq

theorem ite {c : Prop} [Decidable c] {x y : Prog σ α} (hx : c → Triple P x Q)
    (hy : ¬ c → Triple P y Q) : Triple P (if c then x else y) Q := by
  split
  · exact hx ‹_›
  · exact hy ‹_›

theorem forLoop {body : Nat → Prog σ Unit} {I : Nat → σ → Prop}
    (turn : ∀ i, Triple (I i) (body i) fun _ => I (i + 1)) :
    ∀ n start, Triple (I start) (Prog.forLoop body start n) fun _ => I (start + n) := by
  intro n
  induction n with
  | zero => exact fun start => pure fun _ h => h
  | succ n ih =>
      intro start
      have h := ih (start + 1)
      rw [Nat.add_right_comm start 1 n] at h
      exact bind (turn start) fun _ => h

/-- Two specifications side by side. -/
theorem or {x : Prog σ α} {P' : σ → Prop} {Q' : α → σ → Prop} (h : Triple P x Q)
    (h' : Triple P' x Q') : Triple (fun s => P s ∨ P' s) x fun a s => Q a s ∨ Q' a s :=
  fun s hs a s' heq => hs.imp (fun hP => h s hP a s' heq) fun hP => h' s hP a s' heq

theorem weaken {P' : σ → Prop} {Q' : α → σ → Prop} {x : Prog σ α} (h : Triple P' x Q')
    (hP : ∀ s, P s → P' s) (hQ : ∀ a s, Q' a s → Q a s) : Triple P x Q :=
  fun s hs a s' heq => hQ a s' (h s (hP s hs) a s' heq)

end Triple
/-! ## Termination -/

/-- `x` returns from every state. -/
def Returns (x : Prog σ α) : Prop := ∀ s, ∃ r, x s = .ok r

namespace Returns

theorem pure (a : α) : Returns (σ := σ) (pure a) := fun s => ⟨(a, s), rfl⟩

theorem bind {x : Prog σ α} {f : α → Prog σ β} (hx : Returns x) (hf : ∀ a, Returns (f a)) :
    Returns (x >>= f) := by
  intro s
  obtain ⟨⟨a, s'⟩, hrun⟩ := hx s
  rw [bind_of_ok hrun]
  exact hf a s'

theorem ite {c : Prop} [Decidable c] {x y : Prog σ α} (hx : c → Returns x)
    (hy : ¬ c → Returns y) : Returns (if c then x else y) := by
  split
  · exact hx ‹_›
  · exact hy ‹_›

end Returns
end Prog
end MyOs
