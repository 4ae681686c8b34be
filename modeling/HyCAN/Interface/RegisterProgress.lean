import HyCAN.Interface.DispatcherLock
import Mathlib.Algebra.BigOperators.Group.Finset.Basic
import Mathlib.Algebra.Order.BigOperators.Group.Finset

/-! What becomes of the calls of `register_func` that have begun, when no other one begins.
Each takes finitely many steps, and what matters to the reaper is whether `lock_` is free
after them. -/
namespace HyCAN

namespace RegisterPc

variable {Func : Type}

/-- The identifiers that are still to be visited. -/
def ids : RegisterPc Func → List Nat
  | .idle => []
  | .locking ids _ | .looping ids _ => ids

/-- What the thread does next, where it is known which copies of its callback succeed. -/
def next (copies : Nat → Bool) : RegisterPc Func → Option (Dispatcher.RegisterAction Func)
  | .idle => none
  | .locking _ _ => some .lock
  | .looping [] _ => some .unlock
  | .looping (id :: _) _ => some (.next (copies id))

/-- The thread comes to its unlock. -/
def Succeeds (copies : Nat → Bool) (pc : RegisterPc Func) : Prop :=
  ∀ id ∈ pc.ids, id < maxStdCanId ∧ copies id = true

/-- How many steps it may still take. -/
def stepsLeft : RegisterPc Func → Nat
  | .idle => 0
  | .locking ids _ => ids.length + 2
  | .looping ids _ => ids.length + 1

end RegisterPc

namespace Dispatcher

open Transition

variable {Tid Func : Type} [DecidableEq Tid] {s t : Dispatcher Tid Func} {copies : Tid → Nat → Bool}
  {threadEventFd : Fd}

/-- A thread inside `register_func` takes its next step. -/
def Proceeds (copies : Tid → Nat → Bool) (s t : Dispatcher Tid Func) : Prop :=
  ∃ tid action, (s.registrars tid).next (copies tid) = some action ∧ s.registerFunc tid action = some t

/-- `lock_` is not left behind, neither now nor by a call that has begun. -/
def LockComes (copies : Tid → Nat → Bool) (s : Dispatcher Tid Func) : Prop :=
  s.lockView.Disciplined ∧ ∀ tid, (s.registrars tid).Succeeds (copies tid)

theorem Proceeds.registerStep (h : s.Proceeds copies t) : ∃ tid action,
    (s.registrars tid).next (copies tid) = some action ∧ RegisterStep s tid action t := by
  obtain ⟨tid, action, hNext, hTaken⟩ := h
  exact ⟨tid, action, hNext, Dispatcher.registerStep hTaken⟩

/-- Only the table, `lock_`, the log and the thread's own place change. -/
theorem Proceeds.frame (h : s.Proceeds copies t) : t.reapThread = s.reapThread ∧ t.sockets = s.sockets ∧
    t.counter = s.counter ∧ t.threadEventFd = s.threadEventFd := by
  obtain ⟨tid, action, _, hStep⟩ := h.registerStep
  cases hStep <;> exact ⟨rfl, rfl, rfl, rfl⟩

theorem Proceeds.reachable (h : s.Proceeds copies t)
    (hReachable : (machine Tid Func).Reachable (init threadEventFd) s) :
    (machine Tid Func).Reachable (init threadEventFd) t := by
  obtain ⟨tid, action, _, hTaken⟩ := h
  obtain ⟨actions, hRun⟩ := hReachable
  exact ⟨actions ++ [.register tid action],
    ((machine Tid Func).run_concat_eq_some (a := .register tid action)).mpr ⟨s, hRun, hTaken⟩⟩

/-- A thread that is between its `lock` and its `unlock` can always go on. -/
theorem proceeds_of_looping {tid : Tid} {ids : List Nat} {func : Func}
    (hPc : s.registrars tid = .looping ids func) : ∃ t, s.Proceeds copies t := by
  cases ids with
  | nil =>
      obtain ⟨t, hTaken⟩ : ∃ t, s.registerFunc tid .unlock = some t := by simp [registerFunc, hPc]
      exact ⟨t, tid, .unlock, by rw [hPc]; rfl, hTaken⟩
  | cons id ids =>
      obtain ⟨t, hTaken⟩ : ∃ t, s.registerFunc tid (.next (copies tid id)) = some t := by
        simp only [registerFunc, hPc]
        split_ifs <;> simp
      exact ⟨t, tid, .next (copies tid id), by rw [hPc]; rfl, hTaken⟩

theorem proceeds_of_locking {tid : Tid} {ids : List Nat} {func : Func}
    (hPc : s.registrars tid = .locking ids func) (hFree : s.lock = false) : ∃ t, s.Proceeds copies t := by
  obtain ⟨t, hTaken⟩ : ∃ t, s.registerFunc tid .lock = some t := by simp [registerFunc, hPc, hFree]
  exact ⟨t, tid, .lock, by rw [hPc]; rfl, hTaken⟩

section Measure

variable {threads : Finset Tid}

/-- Only these threads are inside `register_func`. -/
def RegistersIn (s : Dispatcher Tid Func) (threads : Finset Tid) : Prop :=
  ∀ tid ∉ threads, s.registrars tid = .idle

theorem RegistersIn.update {pc : RegisterPc Func} {tid : Tid} (h : s.RegistersIn threads)
    (hMoved : t.registrars = Function.update s.registrars tid pc) : t.RegistersIn (insert tid threads) := by
  intro other hOther
  rw [Finset.mem_insert, not_or] at hOther
  rw [hMoved, Function.update_of_ne hOther.1]
  exact h other hOther.2

/-- In every reachable state there are finitely many. -/
theorem registersIn_of_reachable (hReachable : (machine Tid Func).Reachable (init threadEventFd) s) :
    ∃ threads, s.RegistersIn threads := by
  refine hReachable.invariant (P := fun s => ∃ threads, s.RegistersIn threads) ⟨∅, fun _ _ => rfl⟩ ?_
  rintro s action t ⟨threads, h⟩ hTaken
  cases machine_step hTaken with
  | reap _ hStep => cases hStep <;> exact ⟨threads, h⟩
  | @register tid _ _ hStep =>
      refine ⟨insert tid threads, ?_⟩
      cases hStep <;> exact h.update rfl
  | start hStep => cases hStep <;> exact ⟨threads, h⟩
  | stop hStep => cases hStep <;> exact ⟨threads, h⟩
  | kernel hStep => cases hStep <;> exact ⟨threads, h⟩

def registerSteps (s : Dispatcher Tid Func) (threads : Finset Tid) : Nat :=
  ∑ tid ∈ threads, (s.registrars tid).stepsLeft

theorem registerSteps_lt {pc : RegisterPc Func} {tid : Tid} (h : s.RegistersIn threads)
    (hMoved : t.registrars = Function.update s.registrars tid pc)
    (hLess : pc.stepsLeft < (s.registrars tid).stepsLeft) :
    t.RegistersIn threads ∧ t.registerSteps threads < s.registerSteps threads := by
  have hMem : tid ∈ threads := by
    by_contra hOut
    rw [h tid hOut] at hLess
    exact absurd hLess (Nat.not_lt_zero _)
  refine ⟨Finset.insert_eq_of_mem hMem ▸ h.update hMoved, ?_⟩
  refine Finset.sum_lt_sum (fun other _ => ?_) ⟨tid, hMem, by simpa [hMoved] using hLess⟩
  by_cases hTid : other = tid
  · rw [hTid, hMoved, Function.update_self]
    exact hLess.le
  · rw [hMoved, Function.update_of_ne hTid]

/-- Where no call begins, the threads inside come to an end. -/
theorem Proceeds.steps_lt (h : s.Proceeds copies t) (hThreads : s.RegistersIn threads) :
    t.RegistersIn threads ∧ t.registerSteps threads < s.registerSteps threads := by
  obtain ⟨tid, action, hNext, hStep⟩ := h.registerStep
  cases hStep with
  | called hPc => simp [hPc, RegisterPc.next] at hNext
  | acquired hPc => exact registerSteps_lt hThreads rfl (by simp [hPc, RegisterPc.stepsLeft])
  | stored hPc => exact registerSteps_lt hThreads (by rfl) (by simp [hPc, RegisterPc.stepsLeft])
  | left hPc => exact registerSteps_lt hThreads rfl (by simp [hPc, RegisterPc.stepsLeft])
  | released hPc => exact registerSteps_lt hThreads rfl (by simp [hPc, RegisterPc.stepsLeft])

/-- Induction along the steps of these threads. -/
theorem acc_proceeds (hReachable : (machine Tid Func).Reachable (init threadEventFd) s) :
    Acc (fun later s => s.Proceeds copies later) s := by
  obtain ⟨threads, hThreads⟩ := registersIn_of_reachable hReachable
  induction hSteps : s.registerSteps threads using Nat.strongRecOn generalizing s with
  | ind steps ih =>
      refine ⟨s, fun later hProceeds => ?_⟩
      obtain ⟨hLater, hLess⟩ := hProceeds.steps_lt hThreads
      exact ih _ (hSteps ▸ hLess) (hProceeds.reachable hReachable) hLater rfl

end Measure

/-- A thread that moves on, and has the same identifiers left or has got through one. -/
theorem succeeds_update_iff {pc : RegisterPc Func} {tid : Tid}
    (hMoved : t.registrars = Function.update s.registrars tid pc)
    (hSame : pc.Succeeds (copies tid) ↔ (s.registrars tid).Succeeds (copies tid)) :
    (∀ other, (t.registrars other).Succeeds (copies other)) ↔
      ∀ other, (s.registrars other).Succeeds (copies other) := by
  refine forall_congr' fun other => ?_
  by_cases hTid : other = tid
  · rw [hTid, hMoved, Function.update_self]
    exact hSame
  · rw [hMoved, Function.update_of_ne hTid]

/-- Such steps neither free a lock that is left behind nor leave one behind that was not. -/
theorem Proceeds.lockComes_iff (h : s.Proceeds copies t)
    (hReachable : (machine Tid Func).Reachable (init threadEventFd) s) :
    t.LockComes copies ↔ s.LockComes copies := by
  obtain ⟨tid, action, hNext, hStep⟩ := h.registerStep
  obtain ⟨effect, hEffect, hLeak⟩ := hStep.lockEffect
  have hKept (hStays : s.StaysInLoop (.register tid action)) :
      t.lockView.Disciplined ↔ s.lockView.Disciplined := hEffect.disciplined_congr (hLeak.mpr hStays)
  cases hStep with
  | called hPc => simp [hPc, RegisterPc.next] at hNext
  | acquired hPc =>
      refine and_congr (hKept trivial) (succeeds_update_iff rfl ?_)
      simp [hPc, RegisterPc.Succeeds, RegisterPc.ids]
  | @stored id ids func hPc hId =>
      have hCopied : copies tid id = true := by simpa [hPc, RegisterPc.next] using hNext
      refine and_congr (hKept (by simp [StaysInLoop, hPc, hId])) (succeeds_update_iff (by rfl) ?_)
      simp [hPc, RegisterPc.Succeeds, RegisterPc.ids, hId, hCopied]
  | @left id ids func copied hPc hExit =>
      obtain rfl : copies tid id = copied := by simpa [hPc, RegisterPc.next] using hNext
      have hStays : ¬s.StaysInLoop (.register tid (.next (copies tid id))) := by
        simpa [StaysInLoop, hPc, imp_iff_not_or] using hExit
      obtain ⟨holder, hLeft⟩ : ∃ holder, effect = .leak holder := by
        by_contra hNone
        exact hStays (hLeak.mp fun holder hLeft => hNone ⟨holder, hLeft⟩)
      refine iff_of_false (fun hLater => ?_) fun hEarlier => ?_
      · rw [hLeft] at hEffect
        exact hEffect.not_disciplined (exclusive_of_reachable hReachable) hLater.1
      · obtain ⟨hId, hCopied⟩ := hEarlier.2 tid id (by simp [hPc, RegisterPc.ids])
        exact hStays (by simp [StaysInLoop, hPc, hId, hCopied])
  | released hPc =>
      refine and_congr (hKept trivial) (succeeds_update_iff rfl ?_)
      simp [hPc, RegisterPc.Succeeds, RegisterPc.ids]

omit [DecidableEq Tid] in
/-- Nor do the steps of the reaper. -/
theorem ReapStep.lockComes_iff {reaper : Reaper} {action : ReapAction} (hStep : ReapStep s reaper action t)
    (hReaper : s.reapThread = some reaper) : t.LockComes copies ↔ s.LockComes copies := by
  obtain ⟨effect, hEffect, hNoLeak⟩ := hStep.lockEffect hReaper
  have hSame : t.registrars = s.registrars := by cases hStep <;> rfl
  rw [LockComes, LockComes, hSame, hEffect.disciplined_congr hNoLeak]

end Dispatcher
end HyCAN
