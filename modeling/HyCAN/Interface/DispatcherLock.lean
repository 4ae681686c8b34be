import HyCAN.Interface.DispatcherSteps
import HyCAN.Transition.FlagLock

/-! The callback table's `lock_` as an instance of a flag lock. The threads that
can be inside are the reaper, in its dispatch section, and the callers of
`register_func`, in their loop. -/
namespace HyCAN

/-- Between `lock_.lock()` and `lock_.unlock()` in `reap_process`. -/
def ReaperPc.inside : ReaperPc → Bool
  | .locked _ _ _ | .unlocking _ | .fault _ => true
  | _ => false

/-- Between `lock_.lock()` and `lock_.unlock()` in `register_func`. -/
def RegisterPc.inside {Func : Type} : RegisterPc Func → Bool
  | .looping _ _ => true
  | _ => false

namespace Dispatcher

open Transition

variable {Tid Func : Type}

inductive Holder (Tid : Type) where
  | reaper
  | registrar (tid : Tid)

def Inside (s : Dispatcher Tid Func) : Holder Tid → Prop
  | .reaper => ∃ reaper, s.reapThread = some reaper ∧ reaper.pc.inside = true
  | .registrar tid => (s.registrars tid).inside = true

/-- `lock_` and the threads inside, which is all that the lock discipline is about. -/
def lockView (s : Dispatcher Tid Func) : FlagLock (Holder Tid) :=
  ⟨s.lock, {h | s.Inside h}⟩

@[simp] theorem lockView_held (s : Dispatcher Tid Func) : s.lockView.held = s.lock := rfl

@[simp] theorem mem_lockView_inside (s : Dispatcher Tid Func) (h : Holder Tid) :
    h ∈ s.lockView.inside ↔ s.Inside h := Iff.rfl

theorem inside_reaper_iff {s : Dispatcher Tid Func} {reaper : Reaper}
    (hReaper : s.reapThread = some reaper) :
    s.Inside .reaper ↔ reaper.pc.inside = true := by
  simp [Inside, hReaper]

section Effects

variable {s t : Dispatcher Tid Func} {a : Holder Tid}

/-- The view depends on the flag and on who is inside. -/
theorem lockView_keep (hLock : t.lock = s.lock) (hInside : ∀ h, t.Inside h ↔ s.Inside h) :
    FlagLock.Step .keep s.lockView t.lockView := by
  have hSame : t.lockView = s.lockView := by simp only [lockView, hLock, hInside]
  exact hSame ▸ .keep _

theorem lockView_acquire (hFree : s.lock = false) (hLock : t.lock = true)
    (hSelf : t.Inside a) (hOther : ∀ h, h ≠ a → (t.Inside h ↔ s.Inside h)) :
    FlagLock.Step (.acquire a) s.lockView t.lockView := by
  have hView : t.lockView = ⟨true, insert a s.lockView.inside⟩ := by
    simp only [lockView, hLock, FlagLock.mk.injEq, true_and]
    ext h
    by_cases hEq : h = a
    · simp [hEq, hSelf]
    · simp [hEq, hOther h hEq]
  rw [hView]
  exact .acquire hFree

/-- Whoever leaves is no longer inside, whatever becomes of the flag. -/
theorem lockView_leave (hSelf : ¬t.Inside a) (hOther : ∀ h, h ≠ a → (t.Inside h ↔ s.Inside h)) :
    t.lockView = ⟨t.lock, s.lockView.inside \ {a}⟩ := by
  simp only [lockView, FlagLock.mk.injEq, true_and]
  ext h
  by_cases hEq : h = a
  · simp [hEq, hSelf]
  · simp [hEq, hOther h hEq]

theorem lockView_release (hLock : t.lock = false) (hInside : s.Inside a) (hSelf : ¬t.Inside a)
    (hOther : ∀ h, h ≠ a → (t.Inside h ↔ s.Inside h)) :
    FlagLock.Step (.release a) s.lockView t.lockView := by
  rw [lockView_leave hSelf hOther, hLock]
  exact .release hInside

theorem lockView_leak (hLock : t.lock = s.lock) (hInside : s.Inside a) (hSelf : ¬t.Inside a)
    (hOther : ∀ h, h ≠ a → (t.Inside h ↔ s.Inside h)) :
    FlagLock.Step (.leak a) s.lockView t.lockView := by
  rw [lockView_leave hSelf hOther, hLock]
  exact .leak hInside

end Effects

/-- A step that leaves the callers alone can only move the reaper in or out. -/
theorem inside_of_registrars {s t : Dispatcher Tid Func} (hSame : t.registrars = s.registrars)
    {h : Holder Tid} (hNe : h ≠ .reaper) : t.Inside h ↔ s.Inside h := by
  cases h with
  | reaper => exact absurd rfl hNe
  | registrar tid => simp [Inside, hSame]

/-- Moving the reaper between two places on the same side of the lock. -/
theorem lockView_moveReaper {s t : Dispatcher Tid Func} {reaper moved : Reaper}
    (hReaper : s.reapThread = some reaper) (hMoved : t.reapThread = some moved)
    (hSide : moved.pc.inside = reaper.pc.inside) (hLock : t.lock = s.lock)
    (hSame : t.registrars = s.registrars) : FlagLock.Step .keep s.lockView t.lockView := by
  apply lockView_keep hLock
  intro h
  by_cases hEq : h = .reaper
  · rw [hEq, inside_reaper_iff hReaper, inside_reaper_iff hMoved, hSide]
  · exact inside_of_registrars hSame hEq

/-- The effect of each path of `reap_process` on the lock. -/
theorem ReapStep.lockEffect {s t : Dispatcher Tid Func} {reaper : Reaper} {action : ReapAction}
    (hReaper : s.reapThread = some reaper) (hStep : ReapStep s reaper action t) :
    ∃ e, FlagLock.Step e s.lockView t.lockView ∧ ∀ h, e ≠ .leak h := by
  cases hStep with
  | epollWait hPc | interrupted hPc | interruptedStop hPc | waitFailed hPc | batchDone hPc
  | stopTaken hPc | stopNotTaken hPc | notReadable hPc | drained hPc | received hPc
  | readFailed hPc | readClosed hPc | fellAsleep hPc | wokeReceived hPc | wokeFailed hPc
  | faulted hPc | dropped hPc | called hPc =>
      exact ⟨.keep, lockView_moveReaper hReaper rfl (by simp [hPc, ReaperPc.inside]) rfl rfl, by simp⟩
  | acquired hPc hFree =>
      exact ⟨.acquire .reaper, lockView_acquire hFree rfl (by simp [Inside, ReaperPc.inside])
        fun _ hNe => inside_of_registrars (by rfl) hNe, by simp⟩
  | released hPc =>
      exact ⟨.release .reaper, lockView_release rfl (by simp [Inside, hReaper, hPc, ReaperPc.inside])
        (by simp [Inside, ReaperPc.inside]) fun _ hNe => inside_of_registrars (by rfl) hNe, by simp⟩

variable [DecidableEq Tid]

/-- A step that only moves one caller of `register_func`. -/
theorem inside_of_update {s t : Dispatcher Tid Func} {tid : Tid} {pc : RegisterPc Func}
    (hThread : t.reapThread = s.reapThread)
    (hMoved : t.registrars = Function.update s.registrars tid pc)
    {h : Holder Tid} (hNe : h ≠ .registrar tid) : t.Inside h ↔ s.Inside h := by
  cases h with
  | reaper => simp [Inside, hThread]
  | registrar i =>
      have hTid : i ≠ tid := fun hEq => hNe (hEq ▸ rfl)
      simp [Inside, hMoved, hTid]

theorem inside_update_self {t : Dispatcher Tid Func} {tid : Tid} {pc : RegisterPc Func}
    {registrars : Tid → RegisterPc Func} (hMoved : t.registrars = Function.update registrars tid pc) :
    t.Inside (.registrar tid) ↔ pc.inside = true := by
  simp [Inside, hMoved]

/-- Moving a caller between two places on the same side of the lock. -/
theorem lockView_update {s t : Dispatcher Tid Func} {tid : Tid} {pc : RegisterPc Func}
    (hLock : t.lock = s.lock) (hThread : t.reapThread = s.reapThread)
    (hMoved : t.registrars = Function.update s.registrars tid pc)
    (hSide : pc.inside = (s.registrars tid).inside) :
    FlagLock.Step .keep s.lockView t.lockView := by
  apply lockView_keep hLock
  intro h
  by_cases hEq : h = .registrar tid
  · rw [hEq, inside_update_self hMoved, hSide, Inside]
  · exact inside_of_update hThread hMoved hEq

/-- `register_func` goes around its loop once more only with an identifier of
the table and with a callback that could be copied. -/
def StaysInLoop (s : Dispatcher Tid Func) : Action Tid Func → Prop
  | .register tid (.next copied) => ∀ id ids func,
      s.registrars tid = .looping (id :: ids) func → id < maxStdCanId ∧ copied = true
  | _ => True

/-- The effect of each path of `register_func` on the lock. -/
theorem RegisterStep.lockEffect {s t : Dispatcher Tid Func} {tid : Tid}
    {action : RegisterAction Func} (hStep : RegisterStep s tid action t) :
    ∃ e, FlagLock.Step e s.lockView t.lockView ∧
      ((∀ h, e ≠ .leak h) ↔ s.StaysInLoop (.register tid action)) := by
  cases hStep with
  | called hPc =>
      exact ⟨.keep, lockView_update rfl rfl rfl (by rw [hPc]; rfl), by simp [StaysInLoop]⟩
  | acquired hPc hFree =>
      exact ⟨.acquire (.registrar tid), lockView_acquire hFree rfl
        ((inside_update_self rfl).mpr rfl) fun _ hNe => inside_of_update (by rfl) (by rfl) hNe, by simp [StaysInLoop]⟩
  | stored hPc hId =>
      exact ⟨.keep, lockView_update rfl rfl rfl (by rw [hPc]; rfl), by simp [StaysInLoop, hPc, hId]⟩
  | @left id ids func copied hPc hExit =>
      refine ⟨.leak (.registrar tid), lockView_leak rfl (by simp [Inside, hPc, RegisterPc.inside])
        (by simp [Inside, RegisterPc.inside]) fun _ hNe => inside_of_update (by rfl) (by rfl) hNe, ?_⟩
      simp only [StaysInLoop, hPc]
      constructor
      · intro hNoLeak
        exact absurd rfl (hNoLeak (.registrar tid))
      · intro hStays
        obtain ⟨hId, hCopied⟩ := hStays id ids func rfl
        rcases hExit with hExit | hExit
        · omega
        · simp [hCopied] at hExit
  | released hPc =>
      exact ⟨.release (.registrar tid), lockView_release rfl
        (by simp [Inside, hPc, RegisterPc.inside]) (by simp [Inside, RegisterPc.inside])
        fun _ hNe => inside_of_update (by rfl) (by rfl) hNe, by simp [StaysInLoop]⟩

/-- Every step of the machine is a step of the flag lock, and it is a leak
exactly if `register_func` leaves its loop early. -/
theorem Step.lockEffect {s t : Dispatcher Tid Func} {action : Action Tid Func}
    (hStep : Step s action t) :
    ∃ e, FlagLock.Step e s.lockView t.lockView ∧
      ((∀ h, e ≠ .leak h) ↔ s.StaysInLoop action) := by
  cases hStep with
  | reap hReaper hReap =>
      obtain ⟨e, hEffect, hNoLeak⟩ := hReap.lockEffect hReaper
      exact ⟨e, hEffect, by simp [StaysInLoop, hNoLeak]⟩
  | register hRegister => exact hRegister.lockEffect
  | start hStart =>
      refine ⟨.keep, ?_, by simp [StaysInLoop]⟩
      cases hStart with
      | spawned hPc hReaper =>
          refine lockView_keep rfl fun h => ?_
          cases h <;> simp [Inside, hReaper, ReaperPc.inside]
      | _ => exact .keep _
  | stop hStop =>
      refine ⟨.keep, ?_, by simp [StaysInLoop]⟩
      cases hStop with
      | requested hPc hReaper => exact lockView_moveReaper hReaper rfl rfl rfl rfl
      | joined hPc hReaper hExited =>
          refine lockView_keep rfl fun h => ?_
          cases h <;> simp [Inside, hReaper, hExited, ReaperPc.inside]
      | _ => exact .keep _
  | kernel hKernel =>
      refine ⟨.keep, ?_, by simp [StaysInLoop]⟩
      cases hKernel <;> exact .keep _

omit [DecidableEq Tid] in
@[simp] theorem lockView_init (threadEventFd : Fd) :
    (init threadEventFd : Dispatcher Tid Func).lockView = ⟨false, ∅⟩ := by
  have hNobody (h : Holder Tid) : ¬(init threadEventFd : Dispatcher Tid Func).Inside h := by
    cases h <;> simp [init, Inside, RegisterPc.inside]
  simp only [lockView, hNobody]
  rfl

/-- In every reachable state at most one thread is inside. -/
theorem exclusive_of_reachable {threadEventFd : Fd} {s : Dispatcher Tid Func}
    (h : (machine Tid Func).Reachable (init threadEventFd) s) : s.lockView.Exclusive := by
  refine h.invariant (P := fun s => s.lockView.Exclusive) ?_ ?_
  · rw [lockView_init]
    exact ⟨Set.subsingleton_empty, fun hNonempty => absurd hNonempty Set.not_nonempty_empty⟩
  · intro s action t hExclusive hStep
    obtain ⟨e, hEffect, _⟩ := (machine_step hStep).lockEffect
    exact hEffect.exclusive hExclusive

end Dispatcher
end HyCAN
