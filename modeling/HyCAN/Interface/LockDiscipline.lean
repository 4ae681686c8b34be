import HyCAN.Interface.DispatcherLock

/-! Who may hold `lock_`. The two threads that take it by hand release it by
hand, so every way out of the loop of `register_func` matters. -/
namespace HyCAN.Dispatcher

open Transition

variable {Tid Func : Type} [DecidableEq Tid]

/-- A run keeps `lock_` in the hands of threads that are inside, and every call
of `register_func` leaves it free, exactly if no loop meets an identifier
outside the table or a callback that cannot be copied. -/
theorem lock_held_by_inside_iff (threadEventFd : Fd) (actions : List (Action Tid Func)) :
    ((∀ t, (machine Tid Func).Passes (init threadEventFd) actions t →
        t.lock = true → ∃ h, t.Inside h) ∧
      ∀ s tid action t, (machine Tid Func).Takes (init threadEventFd) actions s
        (.register tid action) t →
        s.Inside (.registrar tid) → ¬t.Inside (.registrar tid) → t.lock = false) ↔
      ∀ s action t, (machine Tid Func).Takes (init threadEventFd) actions s action t →
        s.StaysInLoop action := by
  have hExact : (∀ t, (machine Tid Func).Passes (init threadEventFd) actions t →
      t.lockView.Disciplined) ↔
      ∀ s action t, (machine Tid Func).Takes (init threadEventFd) actions s action t →
        s.StaysInLoop action := by
    refine Machine.passes_iff_takes (by simp [FlagLock.Disciplined]) ?_
    intro s action t hTakes hDisciplined
    obtain ⟨e, hEffect, hLeak⟩ := (machine_step hTakes.step).lockEffect
    rw [← hLeak]
    exact hEffect.disciplined_iff (exclusive_of_reachable hTakes.source.reachable) hDisciplined
  constructor
  · rintro ⟨hHeld, _⟩
    exact hExact.mp hHeld
  · intro hStays
    refine ⟨hExact.mpr hStays, ?_⟩
    intro s tid action t hTakes hInside hLeft
    obtain ⟨e, hEffect, hLeak⟩ := (machine_step hTakes.step).lockEffect
    exact hEffect.free_of_left (a := .registrar tid) (hLeak.mpr (hStays _ _ _ hTakes)) hInside hLeft

/-- One call with the identifier 2048, made by a single thread. -/
def registerOutsideTable : List (Action Unit Unit) :=
  [.register () (.call [2048] ()), .register () .lock, .register () (.next true)]

/-- The error return of that call leaves `lock_` set with nobody inside. -/
theorem lock_leaked_by_error_return :
    ∃ t, (machine Unit Unit).Passes (init 3) registerOutsideTable t ∧
      t.lock = true ∧ ∀ h, ¬t.Inside h := by
  refine ⟨_, Machine.Passes.of_run rfl, rfl, ?_⟩
  intro h
  cases h <;> simp [Inside, init, RegisterPc.inside]

end HyCAN.Dispatcher
