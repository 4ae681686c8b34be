import HyCAN.Interface.CallbackSpec
import HyCAN.Interface.StopEvent

/-! Which callbacks are invoked, over whole runs with restarts. The log of a run
drives the specification, and the invocations of the run are compared with the
calls that the specification owes. -/
namespace HyCAN

/-- The frame from the CAN socket that is read and not yet looked up. -/
def ReaperPc.inFlight (threadEventFd : Fd) : ReaperPc → Option CanFrame
  | .holding fd frame _ | .locked fd frame _ => if fd = threadEventFd then none else some frame
  | _ => none

/-- Every frame in the queue has an 11-bit identifier and no flags. -/
def CanSocket.QueuesStandard (socket : CanSocket) : Prop :=
  ∀ frame ∈ socket.queue, frame.IsStandardData

/-- What is taken from such a queue is standard, and so is what is left. -/
theorem CanSocket.QueuesStandard.split {socket rest : CanSocket} {frame : Option CanFrame}
    (h : socket.QueuesStandard) (hQueue : frame.toList ++ rest.queue = socket.queue) :
    (∀ other, frame = some other → other.IsStandardData) ∧ rest.QueuesStandard := by
  unfold QueuesStandard at h
  rw [← hQueue] at h
  refine ⟨?_, fun other hMem => h other (List.mem_append_right _ hMem)⟩
  intro other hSame
  exact h other (by simp [hSame])

theorem CanFrame.IsStandardData.lt_maxStdCanId {frame : CanFrame} (h : frame.IsStandardData) :
    frame.canId.toNat < maxStdCanId := by
  have hMask : frame.canId.toNat ≤ CanFrame.sffMask.toNat := UInt32.le_iff_toNat_le.mp h.2
  have hBound : CanFrame.sffMask.toNat < maxStdCanId := by decide
  omega

namespace Dispatcher

open Transition

variable {Tid Func : Type}

def inFlight (s : Dispatcher Tid Func) : Option CanFrame :=
  s.reapThread.bind fun reaper => reaper.pc.inFlight s.threadEventFd

theorem inFlight_of_reaper {s : Dispatcher Tid Func} {reaper : Reaper}
    (hReaper : s.reapThread = some reaper) :
    s.inFlight = reaper.pc.inFlight s.threadEventFd := by
  simp [inFlight, hReaper]

/-- The table and the reaper implement the registry and the pending frame of the
specification, whatever the eventfd does to the calls. -/
structure Implements (s : Dispatcher Tid Func) (spec : CallbackSpec Func) : Prop where
  registry : ∀ id, spec.registry id = s.funcs[id]?.join
  pending : spec.pending = s.inFlight
  queued : s.sockets.All CanSocket.QueuesStandard
  standard : ∀ frame, s.inFlight = some frame → frame.IsStandardData

/-- Every frame that arrives has an 11-bit identifier and no flags. -/
def ArrivesStandard : Action Tid Func → Prop
  | .kernel (.arrive _ frame) => frame.IsStandardData
  | _ => True

section Steps

variable {s t : Dispatcher Tid Func} {reaper : Reaper}

/-- A step that observes nothing and leaves the table and the frame in flight. -/
theorem Implements.quiet (h : s.Implements (CallbackSpec.after s.log))
    (hFlight : t.inFlight = s.inFlight) (hFuncs : t.funcs = s.funcs) (hLog : t.log = s.log)
    (hQueued : t.sockets.All CanSocket.QueuesStandard) : t.Implements (CallbackSpec.after t.log) := by
  refine ⟨?_, ?_, hQueued, ?_⟩
  · rw [hLog, hFuncs]
    exact h.registry
  · rw [hLog, hFlight]
    exact h.pending
  · rw [hFlight]
    exact h.standard

/-- Moving the reaper between two places with the same frame in flight. -/
theorem inFlight_moved {pc : ReaperPc} (hReaper : s.reapThread = some reaper)
    (hMoved : t.reapThread = some { reaper with pc })
    (hSame : pc.inFlight t.threadEventFd = reaper.pc.inFlight s.threadEventFd) :
    t.inFlight = s.inFlight := by
  rw [inFlight_of_reaper hMoved, inFlight_of_reaper hReaper]
  exact hSame

/-- A lookup leaves nothing pending and the registry alone. -/
theorem lookedUp_spec (spec : CallbackSpec Func) :
    (spec.step .lookedUp).registry = spec.registry ∧ (spec.step .lookedUp).pending = none := by
  cases hPending : spec.pending with
  | none => simp [CallbackSpec.step_lookedUp_idle hPending, hPending]
  | some frame => simp [CallbackSpec.step_lookedUp_pending hPending]

theorem Implements.looked {spec : CallbackSpec Func} (h : s.Implements spec)
    (hFlight : t.inFlight = none) (hFuncs : t.funcs = s.funcs) (hSockets : t.sockets = s.sockets) :
    t.Implements (spec.step .lookedUp) := by
  obtain ⟨hRegistry, hPending⟩ := lookedUp_spec spec
  refine ⟨?_, hPending.trans hFlight.symm, ?_, by simp [hFlight]⟩
  · rw [hRegistry, hFuncs]
    exact h.registry
  · rw [hSockets]
    exact h.queued

/-- The frame of a reaper that has `lock_` is pending, unless it is a counter. -/
theorem Implements.pending_of_locked {spec : CallbackSpec Func} (h : s.Implements spec)
    {fd : Fd} {frame : CanFrame} {events : List EpollEvent} (hReaper : s.reapThread = some reaper)
    (hPc : reaper.pc = .locked fd frame events) :
    spec.pending = if fd = s.threadEventFd then none else some frame := by
  rw [h.pending, inFlight_of_reaper hReaper, hPc]
  rfl

theorem Implements.reap {action : ReapAction} (h : s.Implements (CallbackSpec.after s.log))
    (hWell : s.WellBatched) (hReaper : s.reapThread = some reaper) (hStep : ReapStep s reaper action t) :
    t.Implements (CallbackSpec.after t.log) := by
  cases hStep with
  | received hPc hIn hFd hPlace hSocket hRead =>
      obtain ⟨hFrame, hRest⟩ := (h.queued _ _ hSocket).split (CanSocket.eq_of_read hRead).2
      rw [moveReaper_log, observe_log, CallbackSpec.after_append]
      refine ⟨h.registry, ?_, h.queued.set fun _ hNew => Option.some.inj hNew ▸ hRest, ?_⟩
      · simp [CallbackSpec.step, inFlight, ReaperPc.inFlight, hFd]
      · intro other hSame
        exact hFrame other (by simpa [inFlight, ReaperPc.inFlight, hFd] using hSame)
  | @wokeReceived fd events place socket rest frame hPc hSocket hSleeping hTake =>
      obtain ⟨hFrame, hRest⟩ := (h.queued _ _ hSocket).split (CanSocket.eq_of_take hTake).2
      have hFd : fd ≠ s.threadEventFd := by
        simpa [hPc, ReaperPc.sleepsOn] using hWell.asleep reaper hReaper
      rw [moveReaper_log, observe_log, CallbackSpec.after_append]
      refine ⟨h.registry, ?_, h.queued.woken hRest, ?_⟩
      · simp [CallbackSpec.step, inFlight, ReaperPc.inFlight, hFd]
      · intro other hSame
        exact hFrame other (by simpa [inFlight, ReaperPc.inFlight, hFd] using hSame)
  | readFailed hPc hIn hFd hPlace hSocket hRead =>
      refine h.quiet (inFlight_moved hReaper rfl (by simp [hPc, ReaperPc.inFlight])) rfl rfl ?_
      have hRest := ((h.queued _ _ hSocket).split (CanSocket.eq_of_read hRead).2).2
      exact h.queued.set fun _ hNew => Option.some.inj hNew ▸ hRest
  | fellAsleep hPc hIn hFd hPlace hSocket hRead =>
      refine h.quiet (inFlight_moved hReaper rfl (by simp [hPc, ReaperPc.inFlight])) rfl rfl ?_
      refine h.queued.set fun moved hNew => ?_
      cases hNew
      have hSame := h.queued _ _ hSocket
      exact hSame
  | wokeFailed hPc hSocket hSleeping hTake =>
      refine h.quiet (inFlight_moved hReaper rfl (by simp [hPc, ReaperPc.inFlight])) rfl rfl ?_
      exact h.queued.woken ((h.queued _ _ hSocket).split (CanSocket.eq_of_take hTake).2).2
  | @faulted fd frame events hPc hEntry =>
      have hPending := h.pending_of_locked hReaper hPc
      refine h.quiet ?_ rfl rfl h.queued
      rw [← h.pending, hPending]
      by_cases hFd : fd = s.threadEventFd
      · simp [hFd, inFlight, ReaperPc.inFlight]
      · have hStandard := h.standard frame (by rw [← h.pending, hPending, if_neg hFd])
        have hOut : maxStdCanId ≤ frame.canId.toNat := by simpa using hEntry
        exact absurd hStandard.lt_maxStdCanId (by omega)
  | dropped hPc | called hPc =>
      rw [moveReaper_log, observe_log, CallbackSpec.after_append]
      exact h.looked (by simp [inFlight, ReaperPc.inFlight]) rfl rfl
  | acquired hPc => exact h.quiet (inFlight_moved hReaper rfl (by rw [hPc]; rfl)) rfl rfl h.queued
  | drained hPc | epollWait hPc | interrupted hPc | interruptedStop hPc | waitFailed hPc
  | batchDone hPc | stopTaken hPc | stopNotTaken hPc | notReadable hPc | readClosed hPc
  | released hPc =>
      exact h.quiet (inFlight_moved hReaper rfl (by simp [hPc, ReaperPc.inFlight])) rfl rfl h.queued

variable [DecidableEq Tid]

theorem Implements.register {tid : Tid} {action : RegisterAction Func}
    (h : s.Implements (CallbackSpec.after s.log)) (hStep : RegisterStep s tid action t) :
    t.Implements (CallbackSpec.after t.log) := by
  cases hStep with
  | @stored id ids func hPc hId =>
      rw [observe_log, CallbackSpec.after_append]
      refine ⟨?_, h.pending, h.queued, h.standard⟩
      intro other
      have hOther := h.registry other
      by_cases hEq : other = id
      · simp [CallbackSpec.step, hEq, hId]
      · simp [CallbackSpec.step, hEq, Ne.symm hEq, hOther]
  | called | acquired | left | released => exact h.quiet rfl rfl rfl h.queued

theorem Implements.step {action : Action Tid Func} (h : s.Implements (CallbackSpec.after s.log))
    (hWell : s.WellBatched) (hArrives : ArrivesStandard action) (hStep : Step s action t) :
    t.Implements (CallbackSpec.after t.log) := by
  cases hStep with
  | reap hReaper hReap => exact h.reap hWell hReaper hReap
  | register hRegister => exact h.register hRegister
  | start hStart =>
      cases hStart with
      | called => exact h.quiet rfl rfl rfl h.queued.release
      | bindFailed => exact h.quiet rfl rfl rfl h.queued.close
      | opened =>
          refine h.quiet rfl rfl rfl (h.queued.set fun _ hNew => ?_)
          cases hNew
          simp [CanSocket.QueuesStandard, CanSocket.opened]
      | bound | unblocked | added | flushFailed =>
          exact h.quiet rfl rfl rfl (h.queued.modify fun _ hStandard => hStandard)
      | flushed hPc hSocket hRead | flushDone hPc hSocket hRead =>
          have hRest := ((h.queued _ _ hSocket).split (CanSocket.eq_of_read hRead).2).2
          exact h.quiet rfl rfl rfl (h.queued.set fun _ hNew => Option.some.inj hNew ▸ hRest)
      | spawned hPc hNone =>
          exact h.quiet (by simp [inFlight, hNone, ReaperPc.inFlight]) rfl rfl h.queued
      | openFailed | addFailed | alreadyRunning => exact h.quiet rfl rfl rfl h.queued
  | stop hStop =>
      cases hStop with
      | requested hPc hReaper =>
          exact h.quiet (inFlight_of_reaper hReaper).symm rfl rfl h.queued
      | joined hPc hReaper hExited =>
          exact h.quiet (by simp [inFlight, hReaper, hExited, ReaperPc.inFlight]) rfl rfl h.queued
      | notRunning | written | writeFailed => exact h.quiet rfl rfl rfl h.queued
  | kernel hKernel =>
      cases hKernel with
      | @arrived place socket frame hSocket hBound =>
          refine h.quiet rfl rfl rfl (h.queued.set fun moved hNew => ?_)
          cases hNew
          intro other hMem
          rcases List.mem_append.mp hMem with hOld | hNew
          · exact h.queued place socket hSocket other hOld
          · exact List.mem_singleton.mp hNew ▸ hArrives
      | failed hSocket =>
          refine h.quiet rfl rfl rfl (h.queued.set fun moved hNew => ?_)
          cases hNew
          have hSame := h.queued _ _ hSocket
          exact hSame

end Steps

/-- A frame is received only when the one before it has been looked up. -/
theorem ReapStep.inTurn {s t : Dispatcher Tid Func} {reaper : Reaper} {action : ReapAction}
    (hStep : ReapStep s reaper action t) (hInv : s.Implements (CallbackSpec.after s.log))
    (hReaper : s.reapThread = some reaper) (h : CallbackSpec.InTurn s.log) :
    CallbackSpec.InTurn t.log := by
  have hIdle (hPc : reaper.pc.inFlight s.threadEventFd = none) :
      (CallbackSpec.after s.log).pending = none := by
    rw [hInv.pending, inFlight_of_reaper hReaper, hPc]
  cases hStep with
  | received hPc | wokeReceived hPc => exact h.received (hIdle (by rw [hPc]; rfl)) _
  | dropped => exact h.lookedUp
  | @called _ frame _ func =>
      have hBoth := h.lookedUp.append (.inr ⟨func, frame, rfl⟩)
      rw [List.append_assoc] at hBoth
      exact hBoth
  | epollWait | interrupted | interruptedStop | waitFailed | batchDone | stopTaken | stopNotTaken
  | notReadable | drained | readFailed | readClosed | fellAsleep | wokeFailed | acquired | faulted
  | released => exact h

theorem Step.inTurn [DecidableEq Tid] {s t : Dispatcher Tid Func} {action : Action Tid Func}
    (hStep : Step s action t) (hInv : s.Implements (CallbackSpec.after s.log))
    (h : CallbackSpec.InTurn s.log) : CallbackSpec.InTurn t.log := by
  cases hStep with
  | reap hReaper hReap => exact hReap.inTurn hInv hReaper h
  | register hRegister =>
      cases hRegister with
      | stored => exact h.append (.inl ⟨_, _, rfl⟩)
      | called | acquired | left | released => exact h
  | start hStart => cases hStart <;> exact h
  | stop hStop => cases hStop <;> exact h
  | kernel hKernel => cases hKernel <;> exact h

/-- The calls of the run are the calls it owes, and the reaper is still defined. -/
structure CallsCorrect (s : Dispatcher Tid Func) : Prop where
  calls : invocations s.log = (CallbackSpec.after s.log).calls
  inBounds : ∀ reaper events, s.reapThread = some reaper → reaper.pc ≠ .fault events

/-- A step that reports no call and does not get lost in the table. -/
theorem CallsCorrect.quiet {s t : Dispatcher Tid Func} (h : s.CallsCorrect)
    (hInvoked : invocations t.log = invocations s.log)
    (hCalls : (CallbackSpec.after t.log).calls = (CallbackSpec.after s.log).calls)
    (hBounds : ∀ reaper events, t.reapThread = some reaper → reaper.pc ≠ .fault events) :
    t.CallsCorrect :=
  ⟨by rw [hInvoked, hCalls, h.calls], hBounds⟩

section Dispatch

variable {s t : Dispatcher Tid Func} {reaper : Reaper} {fd : Fd} {frame : CanFrame}
  {events : List EpollEvent}

end Dispatch

variable [DecidableEq Tid]

end Dispatcher
end HyCAN
