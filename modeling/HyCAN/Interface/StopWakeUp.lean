import HyCAN.Interface.StopEvent

/-! Whether `stop` can wait forever. Its write to the eventfd is meant to wake the
reaper, and the same eventfd can be read, and thereby reset, by the branch of
`reap_process` that reads CAN frames. -/
namespace HyCAN.Dispatcher

open Transition

variable {Tid Func : Type}

/-- After the write of `stop`, as long as the reaper has not returned, the count
is still there or its event is still to be tested. -/
def WakeUpPending (s : Dispatcher Tid Func) : Prop :=
  s.controller = .joining → ∀ reaper, s.reapThread = some reaper → reaper.pc ≠ .exited →
    s.counter ≠ 0 ∨ ∃ event ∈ reaper.pc.untested, event.fd = s.threadEventFd

/-- `stop` waits in `join` for a reaper whose `epoll_wait` has nothing to report. -/
def JoinBlocked (s : Dispatcher Tid Func) : Prop :=
  s.controller = .joining ∧ s.readyEvents = [] ∧
    ∃ reaper, s.reapThread = some reaper ∧ reaper.pc = .waiting

theorem WakeUpPending.not_joinBlocked {s : Dispatcher Tid Func} (h : s.WakeUpPending) :
    ¬s.JoinBlocked := by
  rintro ⟨hJoining, hReady, reaper, hReaper, hPc⟩
  rcases h hJoining reaper hReaper (by simp [hPc]) with hCounter | ⟨event, hMem, _⟩
  · simp [readyEvents, hCounter] at hReady
  · simp [hPc, ReaperPc.untested] at hMem

/-- While `stop` waits in `join`, the reaper does not read the eventfd. -/
def KeepsWakeUp (s : Dispatcher Tid Func) : Action Tid Func → Prop
  | .reap .read => s.controller = .joining → ∀ reaper event events,
      s.reapThread = some reaper → reaper.pc = .reading event events →
      event.epollIn = true → event.fd ≠ s.threadEventFd
  | _ => True

/-- A reaper that is past the stop test of an eventfd event and whose read drains
the counter has no second event of the eventfd in its batch. -/
theorem WellBatched.not_mem_of_reading {s : Dispatcher Tid Func} (h : s.WellBatched)
    {reaper : Reaper} {event : EpollEvent} {events : List EpollEvent}
    (hReaper : s.reapThread = some reaper) (hPc : reaper.pc = .reading event events) :
    ¬∃ other ∈ events, other.fd = event.fd := by
  have hNodup := h.nodup reaper hReaper
  simp only [hPc, ReaperPc.unread, List.map_cons, List.nodup_cons, List.mem_map] at hNodup
  exact hNodup.1

/-- Draining the eventfd takes the count and leaves no event to test. -/
theorem ReapStep.wakeUp_lost {s t : Dispatcher Tid Func} {reaper : Reaper} {event : EpollEvent}
    {events : List EpollEvent} (hStep : ReapStep s reaper .read t) (hWell : s.WellBatched)
    (hReaper : s.reapThread = some reaper) (hJoining : s.controller = .joining)
    (hPc : reaper.pc = .reading event events) (hIn : event.epollIn = true)
    (hFd : event.fd = s.threadEventFd) : ¬t.WakeUpPending := by
  have hLast := hWell.not_mem_of_reading hReaper hPc
  cases hStep with
  | drained hAt _ _ hCounter =>
      rw [hPc] at hAt
      cases hAt
      intro hPending
      rcases hPending hJoining _ rfl (by simp) with hNonzero | hOther
      · exact hNonzero rfl
      · exact hLast (by simpa [ReaperPc.untested, hFd] using hOther)
  | notReadable hAt hOff =>
      rw [hPc] at hAt
      cases hAt
      simp [hIn] at hOff
  | received hAt _ hNe | readFailed hAt _ hNe | readClosed hAt _ hNe | fellAsleep hAt _ hNe =>
      rw [hPc] at hAt
      cases hAt
      exact absurd hFd hNe

/-- Every other step of the reaper keeps the wake-up: the stop test of an event
of the eventfd succeeds, since the stop was requested before the write. -/
theorem ReapStep.wakeUp_kept {s t : Dispatcher Tid Func} {reaper : Reaper} {action : ReapAction}
    (hStep : ReapStep s reaper action t) (hWell : s.WellBatched)
    (hReaper : s.reapThread = some reaper) (hPending : s.WakeUpPending)
    (hKeeps : s.KeepsWakeUp (.reap action)) : t.WakeUpPending := by
  intro hJoining moved hMoved hRunning
  have hBefore : s.controller = .joining := hStep.frame.2.1 ▸ hJoining
  have hPending := hPending hBefore reaper hReaper
  cases hStep with
  | epollWait hPc | interrupted hPc | batchDone hPc =>
      cases hMoved
      have hCounter : s.counter ≠ 0 := by simpa [hPc, ReaperPc.untested] using hPending
      exact .inl hCounter
  | interruptedStop | waitFailed | stopTaken =>
      cases hMoved
      exact absurd rfl hRunning
  | stopNotTaken hPc hTest =>
      cases hMoved
      have hStop := hWell.stopping (.inr hBefore) reaper hReaper
      simp only [hPc, ReaperPc.untested, List.mem_cons, exists_eq_or_imp] at hPending
      rcases hPending (by simp) with hCounter | hFd | hOther
      · exact .inl hCounter
      · exact absurd ⟨hFd, hStop⟩ hTest
      · exact .inr hOther
  | drained hPc hIn hFd => exact absurd hFd (hKeeps hBefore reaper _ _ hReaper hPc hIn)
  | notReadable hPc | received hPc | readFailed hPc | readClosed hPc | fellAsleep hPc
  | wokeReceived hPc | wokeFailed hPc | acquired hPc | faulted hPc | dropped hPc | called hPc
  | released hPc =>
      cases hMoved
      simp only [hPc, ReaperPc.untested] at hPending
      exact hPending (by simp)

variable [DecidableEq Tid]

/-- A step keeps the wake-up exactly if it does not drain it. -/
theorem Step.wakeUpPending_iff {s t : Dispatcher Tid Func} {action : Action Tid Func}
    (hStep : Step s action t) (hWell : s.WellBatched) (hPending : s.WakeUpPending) :
    t.WakeUpPending ↔ s.KeepsWakeUp action := by
  cases hStep with
  | @reap reaper action _ hReaper hReap =>
      constructor
      · intro hAfter
        cases action <;> try trivial
        intro hJoining same event events hSame hPc hIn hFd
        rw [hReaper] at hSame
        cases hSame
        exact hReap.wakeUp_lost hWell hReaper hJoining hPc hIn hFd hAfter
      · exact hReap.wakeUp_kept hWell hReaper hPending
  | register hRegister =>
      refine iff_of_true ?_ trivial
      cases hRegister <;> exact hPending
  | start hStart =>
      refine iff_of_true ?_ trivial
      cases hStart with
      | flushed hPc => simp [WakeUpPending, hPc]
      | _ => simp [WakeUpPending]
  | stop hStop =>
      refine iff_of_true ?_ trivial
      cases hStop with
      | notRunning => exact hPending
      | written => exact fun _ _ _ _ => .inl (Nat.succ_ne_zero _)
      | requested | writeFailed | joined => simp [WakeUpPending]
  | kernel hKernel =>
      refine iff_of_true ?_ trivial
      cases hKernel <;> exact hPending

omit [DecidableEq Tid] in
/-- A fresh reaper never gets to read the eventfd. -/
theorem Fresh.keepsWakeUp {s : Dispatcher Tid Func} (h : s.Fresh) (action : Action Tid Func) :
    s.KeepsWakeUp action := by
  cases action with
  | reap action =>
      cases action <;> try trivial
      intro _ reaper event events hReaper hPc _ hFd
      have hActive := (h reaper hReaper).active
      simp [hPc, ReaperPc.active, hFd] at hActive
  | _ => trivial

/-- A run keeps every wake-up of `stop`, and never leaves `stop` in `join` with
nothing to wake the reaper, exactly if no read drains the eventfd meanwhile.
Where each thread starts with the counter at zero there is no such read. -/
theorem stop_wakes_reaper_iff (threadEventFd : Fd) (actions : List (Action Tid Func)) :
    ((∀ t, (machine Tid Func).Passes (init threadEventFd) actions t →
        t.WakeUpPending ∧ ¬t.JoinBlocked) ↔
      ∀ s action t, (machine Tid Func).Takes (init threadEventFd) actions s action t →
        s.KeepsWakeUp action) ∧
      ((∀ s action t, (machine Tid Func).Takes (init threadEventFd) actions s action t →
          s.SpawnsFresh action) →
        ∀ t, (machine Tid Func).Passes (init threadEventFd) actions t →
          t.WakeUpPending ∧ ¬t.JoinBlocked) := by
  have hExact : (∀ t, (machine Tid Func).Passes (init threadEventFd) actions t →
      t.WakeUpPending) ↔
      ∀ s action t, (machine Tid Func).Takes (init threadEventFd) actions s action t →
        s.KeepsWakeUp action := by
    refine Machine.passes_iff_takes (by simp [WakeUpPending, init]) ?_
    intro s action t hTakes hPending
    exact (machine_step hTakes.step).wakeUpPending_iff
      (wellBatched_of_reachable hTakes.source.reachable) hPending
  refine ⟨⟨?_, ?_⟩, ?_⟩
  · intro hAll
    exact hExact.mp fun t hPasses => (hAll t hPasses).1
  · intro hKeeps t hPasses
    have hPending := hExact.mpr hKeeps t hPasses
    exact ⟨hPending, hPending.not_joinBlocked⟩
  · intro hSpawns t hPasses
    have hPending := hExact.mpr
      (fun s action u hTakes => (fresh_of_passes hSpawns hTakes.source).keepsWakeUp action) t hPasses
    exact ⟨hPending, hPending.not_joinBlocked⟩

/-- One cycle of `start` and `stop`. The reaper returns at its stop test, so the
count that `stop` wrote stays. -/
def stoppedOnce : List (Action Unit Unit) :=
  smoothStart 5 ++
    [.stop .call, .stop .write, .reap (.epollWait [⟨3, true, false⟩]), .reap .test, .stop .join]

/-- A second cycle in which `stop` requests and writes between the reaper's stop
test and its read. The read then takes both counts. -/
def stoppedBetweenTestAndRead : List (Action Unit Unit) :=
  stoppedOnce ++ smoothStart 5 ++
    [.reap (.epollWait [⟨3, true, false⟩]), .reap .test, .stop .call, .stop .write, .reap .read,
      .reap .lock, .reap .dispatch, .reap .unlock, .reap .test]

theorem stop_blocked_in_join :
    ∃ t, (machine Unit Unit).Passes (init 3) stoppedBetweenTestAndRead t ∧
      ¬t.WakeUpPending ∧ t.JoinBlocked := by
  refine ⟨_, Machine.Passes.of_run rfl, ?_, rfl, rfl, _, rfl, rfl⟩
  intro hPending
  rcases hPending rfl _ rfl (by simp) with hCounter | ⟨_, hMem, _⟩
  · exact hCounter rfl
  · simp [ReaperPc.untested] at hMem

end HyCAN.Dispatcher
