import HyCAN.Transition.Machine
import Mathlib.Algebra.GroupWithZero.Nat

/-! Machines that run down: each action has a price that a step pays out of the rank of the
state, and an allowance that it adds to it. In a run, prices are limited by the rank of the
first state and all allowances. -/
namespace Transition

universe u v

namespace Machine

variable {State : Type u} {Action : Type v} (M : Machine State Action)

/-- Between states where the condition holds, steps pay their price. -/
def Ranked (holds : State → Prop) (rank : State → Nat) (price allowance : Action → Nat) : Prop :=
  ∀ s a t, holds s → holds t → M.step s a = some t → rank t + price a ≤ rank s + allowance a

variable {M} {holds : State → Prop} {rank : State → Nat} {price allowance : Action → Nat}

/-- A run in whose states the condition holds pays for all its actions. -/
theorem Ranked.run_le (h : M.Ranked holds rank price allowance) {s t : State} {actions : List Action}
    (hRun : M.run s actions = some t) (hHolds : ∀ u, M.Passes s actions u → holds u) :
    rank t + (actions.map price).sum ≤ rank s + (actions.map allowance).sum := by
  induction actions generalizing s with
  | nil =>
      rw [run_nil, Option.some.injEq] at hRun
      rw [hRun]
      exact Nat.le_refl _
  | cons a rest ih =>
      rw [run_cons, Option.bind_eq_some_iff] at hRun
      obtain ⟨next, hStep, hRest⟩ := hRun
      have hLater : ∀ u, M.Passes next rest u → holds u := fun u hPasses =>
        hHolds u (passes_cons_iff.mpr (.inr ⟨next, hStep, hPasses⟩))
      have hPays := h s a next (hHolds s passes_start) (hLater next passes_start) hStep
      have hAll := ih hRest hLater
      rw [List.map_cons, List.map_cons, List.sum_cons, List.sum_cons]
      omega

end Machine
end Transition
