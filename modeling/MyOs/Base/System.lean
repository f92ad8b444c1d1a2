import Mathlib.Data.List.Forall2

/-!
# Transition systems, runs and guarded runs

A system is a set of initial states and a labelled step relation; a label is
the call made in that step. Results about "every sequence of calls" are
invariants of the reachable states. Results about runs that keep to a
condition on every call are invariants of the restricted system, and
`run_states_iff_steps` gives the exact form: along a run the property holds
in every state just when every step meets the condition. `Simulates` compares
two systems: what one does the other follows, call by call.
-/

namespace MyOs

/-- A labelled transition system over states `σ` and calls `α`. -/
structure TSys (σ α : Type) where
  init : σ → Prop
  step : σ → α → σ → Prop

namespace TSys

variable {σ α : Type}

/-- States a run can reach. -/
inductive Reachable (T : TSys σ α) : σ → Prop
  | init {s} : T.init s → Reachable T s
  | step {s a s'} : Reachable T s → T.step s a s' → Reachable T s'

/-- `P` holds in every reachable state. -/
def Invariant (T : TSys σ α) (P : σ → Prop) : Prop :=
  ∀ s, T.Reachable s → P s

/-- The two obligations of an inductive invariant. -/
structure Inductive (T : TSys σ α) (P : σ → Prop) : Prop where
  init : ∀ s, T.init s → P s
  step : ∀ s a s', P s → T.step s a s' → P s'

/-- An inductive property holds in every reachable state. -/
theorem Inductive.invariant {T : TSys σ α} {P : σ → Prop} (h : T.Inductive P) :
    T.Invariant P := by
  intro s hs
  induction hs with
  | init hi => exact h.init _ hi
  | step _ hstep ih => exact h.step _ _ _ ih hstep

/-- The runs of `T` in which every call meets the condition `C` in the state
it is made in. -/
def restrict (T : TSys σ α) (C : σ → α → Prop) : TSys σ α where
  init := T.init
  step s a s' := C s a ∧ T.step s a s'

/-- A run from `s`: each call with the state it leads to. -/
def IsRun (T : TSys σ α) : σ → List (α × σ) → Prop
  | _, [] => True
  | s, (a, s') :: rest => T.step s a s' ∧ IsRun T s' rest

/-- Every state of the run from `s` satisfies `P`, the first one included. -/
def AllStates (P : σ → Prop) : σ → List (α × σ) → Prop
  | s, [] => P s
  | s, (_, s') :: rest => P s ∧ AllStates P s' rest

/-- The state the run from `s` ends in. -/
def final : σ → List (α × σ) → σ
  | s, [] => s
  | _, (_, s') :: rest => final s' rest

/-- What holds in every state of a run holds in the last one. -/
theorem AllStates.final {P : σ → Prop} {s : σ} {run : List (α × σ)} (h : AllStates P s run) :
    P (final s run) := by
  induction run generalizing s with
  | nil => exact h
  | cons next rest ih => exact ih h.2

/-- Every call of the run from `s` meets `C` in the state it is made in. -/
def AllSteps (C : σ → α → Prop) : σ → List (α × σ) → Prop
  | _, [] => True
  | s, (a, s') :: rest => C s a ∧ AllSteps C s' rest

/-- Every move of the run from `s` has `P`: the state before, the call and the
state after. -/
def AllMoves (P : σ → α → σ → Prop) : σ → List (α × σ) → Prop
  | _, [] => True
  | s, (a, s') :: rest => P s a s' ∧ AllMoves P s' rest

/-- When `P` of one move is a condition on the state before it, `P` of all moves
of a run is that condition on all its calls. -/
theorem run_moves_iff_steps {T : TSys σ α} {Inv : σ → Prop} {P : σ → α → σ → Prop}
    {C : σ → α → Prop} (keep : ∀ s a s', Inv s → T.step s a s' → Inv s')
    (exact : ∀ s a s', Inv s → T.step s a s' → (P s a s' ↔ C s a))
    {s : σ} (hs : Inv s) {run : List (α × σ)} (hrun : T.IsRun s run) :
    AllMoves P s run ↔ AllSteps C s run := by
  induction run generalizing s with
  | nil => exact Iff.rfl
  | cons next rest ih =>
      obtain ⟨a, s'⟩ := next
      obtain ⟨hstep, hrest⟩ := hrun
      exact and_congr (exact s a s' hs hstep) (ih (keep s a s' hs hstep) hrest)

/-- Along any run from a state with the invariant, `P` holds in every state
exactly when every call meets the condition: a call that meets it keeps the
invariant, and a call that does not loses `P`. -/
theorem run_states_iff_steps {T : TSys σ α} {Inv P : σ → Prop} {C : σ → α → Prop}
    (safe : ∀ s, Inv s → P s)
    (keep : ∀ s a s', Inv s → C s a → T.step s a s' → Inv s')
    (lose : ∀ s a s', Inv s → ¬ C s a → T.step s a s' → ¬ P s')
    {s : σ} (hs : Inv s) {run : List (α × σ)} (hrun : T.IsRun s run) :
    AllStates P s run ↔ AllSteps C s run := by
  induction run generalizing s with
  | nil => exact ⟨fun _ => trivial, fun _ => safe s hs⟩
  | cons next rest ih =>
      obtain ⟨a, s'⟩ := next
      obtain ⟨hstep, hrest⟩ := hrun
      constructor
      · rintro ⟨_, hall⟩
        have hs' : P s' := by
          cases rest with
          | nil => exact hall
          | cons _ _ => exact hall.1
        have hc : C s a := Classical.byContradiction fun hn => lose s a s' hs hn hstep hs'
        exact ⟨hc, (ih (keep s a s' hs hc hstep) hrest).mp hall⟩
      · rintro ⟨hc, hall⟩
        exact ⟨safe s hs, (ih (keep s a s' hs hc hstep) hrest).mpr hall⟩

/-- What every call that meets `C` keeps holds at the end of a run of such
calls. -/
theorem IsRun.final_of {T : TSys σ α} {Inv : σ → Prop} {C : σ → α → Prop}
    (keep : ∀ s a s', Inv s → C s a → T.step s a s' → Inv s') {run : List (α × σ)} {s : σ}
    (hs : Inv s) (hrun : T.IsRun s run) (hC : AllSteps C s run) : Inv (final s run) := by
  induction run generalizing s with
  | nil => exact hs
  | cons next rest ih => exact ih (keep _ _ _ hs hC.1 hrun.1) hrun.2 hC.2

/-- In a run of such calls every state has what the invariant gives. -/
theorem IsRun.states_of {T : TSys σ α} {Inv P : σ → Prop} {C : σ → α → Prop}
    (safe : ∀ s, Inv s → P s) (keep : ∀ s a s', Inv s → C s a → T.step s a s' → Inv s')
    {run : List (α × σ)} {s : σ} (hs : Inv s) (hrun : T.IsRun s run) (hC : AllSteps C s run) :
    AllStates P s run := by
  induction run generalizing s with
  | nil => exact safe s hs
  | cons next rest ih => exact ⟨safe s hs, ih (keep _ _ _ hs hC.1 hrun.1) hrun.2 hC.2⟩

/-- And every move has what the invariant and the condition give of it. -/
theorem IsRun.moves_of {T : TSys σ α} {Inv : σ → Prop} {P : σ → α → σ → Prop} {C : σ → α → Prop}
    (keep : ∀ s a s', Inv s → C s a → T.step s a s' → P s a s' ∧ Inv s')
    {run : List (α × σ)} {s : σ} (hs : Inv s) (hrun : T.IsRun s run) (hC : AllSteps C s run) :
    AllMoves P s run := by
  induction run generalizing s with
  | nil => trivial
  | cons next rest ih =>
      obtain ⟨hmove, hinv⟩ := keep _ _ _ hs hC.1 hrun.1
      exact ⟨hmove, ih hinv hrun.2 hC.2⟩

/-- A run stays in the reachable states. -/
theorem IsRun.reachable {T : TSys σ α} {run : List (α × σ)} {s : σ} (hs : T.Reachable s)
    (hrun : T.IsRun s run) : T.Reachable (final s run) := by
  induction run generalizing s with
  | nil => exact hs
  | cons next rest ih => exact ih (hs.step hrun.1) hrun.2

/-- The last call of a run starts in a state with `Inv`, when the calls before
it keep `Inv`: `C` is what every call meets, `D` what only the earlier ones do. -/
theorem IsRun.last_step {T : TSys σ α} {Inv : σ → Prop} {C D : σ → α → Prop}
    (keep : ∀ s a s', Inv s → C s a → D s a → T.step s a s' → Inv s') {a : α} {t : σ}
    (run : List (α × σ)) {s : σ} (hs : Inv s) (hrun : T.IsRun s (run ++ [(a, t)]))
    (hC : AllSteps C s (run ++ [(a, t)])) (hD : AllSteps D s run) :
    ∃ s', Inv s' ∧ C s' a ∧ T.step s' a t := by
  induction run generalizing s with
  | nil => exact ⟨s, hs, hC.1, hrun.1⟩
  | cons next rest ih =>
      obtain ⟨b, s'⟩ := next
      exact ih (keep s b s' hs hC.1 hD.1 hrun.1) hrun.2 hC.2 hD.2

/-! ## Simulation -/

/-- `A` can follow every step of `T`: states related by `R` stay related, and a call of `T`
is matched by a call of `A` that `L` relates to it. -/
structure Simulates {τ β : Type} (T : TSys σ α) (A : TSys τ β) (R : σ → τ → Prop)
    (L : α → β → Prop) : Prop where
  init : ∀ s, T.init s → ∃ t, A.init t ∧ R s t
  step : ∀ s a s' t, R s t → T.step s a s' → ∃ b t', L a b ∧ A.step t b t' ∧ R s' t'

/-- A run of `T` is followed call by call. -/
theorem Simulates.run {τ β : Type} {T : TSys σ α} {A : TSys τ β} {R : σ → τ → Prop}
    {L : α → β → Prop} (h : T.Simulates A R L) {run : List (α × σ)} {s : σ} {t : τ}
    (hR : R s t) (hrun : T.IsRun s run) :
    ∃ run', A.IsRun t run' ∧
      List.Forall₂ (fun x y => L x.1 y.1 ∧ R x.2 y.2) run run' := by
  induction run generalizing s t with
  | nil => exact ⟨[], trivial, .nil⟩
  | cons next rest ih =>
      obtain ⟨a, s'⟩ := next
      obtain ⟨b, t', hcall, hstep, hR'⟩ := h.step s a s' t hR hrun.1
      obtain ⟨run', hrun', hall⟩ := ih hR' hrun.2
      exact ⟨(b, t') :: run', ⟨hstep, hrun'⟩, .cons ⟨hcall, hR'⟩ hall⟩

/-- What a related state of `A` says holds in every state of a run of `T`. -/
theorem Simulates.allStates {τ β : Type} {T : TSys σ α} {A : TSys τ β} {R : σ → τ → Prop}
    {L : α → β → Prop} {P : σ → Prop} (h : T.Simulates A R L) (safe : ∀ s t, R s t → P s)
    {run : List (α × σ)} {s : σ} {t : τ} (hR : R s t) (hrun : T.IsRun s run) :
    AllStates P s run := by
  induction run generalizing s t with
  | nil => exact safe s t hR
  | cons next rest ih =>
      obtain ⟨a, s'⟩ := next
      obtain ⟨b, t', _, _, hR'⟩ := h.step s a s' t hR hrun.1
      exact ⟨safe s t hR, ih hR' hrun.2⟩

end TSys
end MyOs
