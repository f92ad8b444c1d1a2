import MyOs.Base.System
import Mathlib.Logic.Function.Basic

/-!
# Cells

What a table, a register file or a disk is for: cells that keep what was last put
into them. A component is shown to be one by a simulation; then what a read gives
after any run is what the run put there last.
-/

namespace MyOs

/-- Put `a` into the cell `i`, or find it there. -/
inductive CellCall (ι α : Type)
  | set (i : ι) (a : α)
  | get (i : ι) (a : α)

variable {ι α : Type} [DecidableEq ι]

/-- Cells with any contents at first. -/
def cells (ι α : Type) [DecidableEq ι] : TSys (ι → α) (CellCall ι α) where
  init _ := True
  step f call f' :=
    match call with
    | .set i a => f' = Function.update f i a
    | .get i a => f i = a ∧ f' = f

/-- What calls leave in the cells. -/
def CellCall.after (f : ι → α) : List (CellCall ι α) → ι → α
  | [] => f
  | .set i a :: calls => after (Function.update f i a) calls
  | .get _ _ :: calls => after f calls

/-- A cell holds what it held at first, or what a call has put there. -/
theorem CellCall.after_cases (f : ι → α) (calls : List (CellCall ι α)) (i : ι) :
    after f calls i = f i ∨ ∃ a, CellCall.set i a ∈ calls ∧ after f calls i = a := by
  induction calls generalizing f with
  | nil => exact .inl rfl
  | cons call calls ih =>
      cases call with
      | set j b =>
          rcases ih (Function.update f j b) with h | ⟨a, ha, h⟩
          · by_cases hij : i = j
            · subst hij
              refine .inr ⟨b, List.mem_cons_self, ?_⟩
              rw [after, h, Function.update_self]
            · refine .inl ?_
              rw [after, h, Function.update_of_ne hij]
          · exact .inr ⟨a, List.mem_cons_of_mem _ ha, h⟩
      | get j b =>
          rcases ih f with h | ⟨a, ha, h⟩
          · exact .inl h
          · exact .inr ⟨a, List.mem_cons_of_mem _ ha, h⟩

end MyOs
