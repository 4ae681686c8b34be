import HyCAN.Interface.DispatcherSteps

/-! The life of an event for `thread_event_fd`: it is reported in a batch, its
stop test is made, and if no stop was requested by then the descriptor is read
like a CAN socket. The invariants say where in this life a reaper can be. -/
namespace HyCAN

/-- The events of the batch whose stop test is still to come. -/
def ReaperPc.untested : ReaperPc → List EpollEvent
  | .scanning events | .reading _ events | .asleep _ events | .holding _ _ events
  | .locked _ _ events | .unlocking events | .fault events => events
  | .waiting | .exited => []

/-- The events of the batch whose descriptor has not been read. -/
def ReaperPc.unread : ReaperPc → List EpollEvent
  | .reading event events => event :: events
  | pc => pc.untested

/-- The descriptor that is past its stop test and not yet done with. -/
def ReaperPc.active : ReaperPc → Option Fd
  | .reading event _ => some event.fd
  | .asleep fd _ | .holding fd _ _ | .locked fd _ _ => some fd
  | _ => none

/-- The descriptor of the read that the reaper sleeps in. -/
def ReaperPc.sleepsOn : ReaperPc → Option Fd
  | .asleep fd _ => some fd
  | _ => none

namespace Dispatcher

open Transition

variable {Tid Func : Type}

/-- The sockets and the eventfd are different descriptors, a batch reports each at
most once, only the read of a socket sleeps, and `stop` writes only after its stop request. -/
structure WellBatched (s : Dispatcher Tid Func) : Prop where
  numbered : s.sockets.Numbered s.threadEventFd
  nodup : ∀ reaper, s.reapThread = some reaper → (reaper.pc.unread.map EpollEvent.fd).Nodup
  asleep : ∀ reaper, s.reapThread = some reaper → reaper.pc.sleepsOn ≠ some s.threadEventFd
  stopping : s.controller = .writing ∨ s.controller = .joining →
    ∀ reaper, s.reapThread = some reaper → reaper.stopRequested = true

theorem mem_readyEvents {s : Dispatcher Tid Func} {event : EpollEvent} (hMem : event ∈ s.readyEvents) :
    event = ⟨s.threadEventFd, true, false⟩ ∧ s.counter ≠ 0 ∨
      ∃ place socket, place ≠ .closed ∧ s.sockets place = some socket ∧ event ∈ socket.ready := by
  have hReady (place : CanSocketPlace) (hOpen : place ≠ .closed)
      (hPlace : event ∈ ((s.sockets place).map CanSocket.ready).getD []) :
      ∃ place socket, place ≠ .closed ∧ s.sockets place = some socket ∧ event ∈ socket.ready := by
    cases hSocket : s.sockets place with
    | none => simp [hSocket] at hPlace
    | some socket => exact ⟨place, socket, hOpen, hSocket, by simpa [hSocket] using hPlace⟩
  simp only [readyEvents, List.mem_append] at hMem
  rcases hMem with (hCounter | hCurrent) | hLeftover
  · split_ifs at hCounter with hZero
    · exact .inl ⟨List.mem_singleton.mp hCounter, hZero⟩
    · simp at hCounter
  · exact .inr (hReady .current (by decide) hCurrent)
  · exact .inr (hReady .leftover (by decide) hLeftover)

/-- An event for the eventfd comes from its counter. -/
theorem WellBatched.counter_ne_zero {s : Dispatcher Tid Func} (h : s.WellBatched)
    {event : EpollEvent} (hMem : event ∈ s.readyEvents) (hFd : event.fd = s.threadEventFd) :
    s.counter ≠ 0 := by
  rcases mem_readyEvents hMem with ⟨_, hCounter⟩ | ⟨place, socket, _, hSocket, hReady⟩
  · exact hCounter
  · exact absurd (CanSocket.fd_of_mem_ready hReady ▸ hFd) (h.numbered.event place socket hSocket)

theorem WellBatched.readyEvents_nodup {s : Dispatcher Tid Func} (h : s.WellBatched) :
    (s.readyEvents.map EpollEvent.fd).Nodup := by
  have hReady (place : CanSocketPlace) :
      ((((s.sockets place).map CanSocket.ready).getD []).map EpollEvent.fd).Nodup := by
    cases s.sockets place with
    | none => simp
    | some socket =>
        rw [Option.map_some, Option.getD_some, CanSocket.ready]
        split <;> simp
  have hOwn {place : CanSocketPlace} {fd : Fd}
      (hMem : fd ∈ (((s.sockets place).map CanSocket.ready).getD []).map EpollEvent.fd) :
      ∃ socket, s.sockets place = some socket ∧ fd = socket.fd := by
    cases hSocket : s.sockets place with
    | none => simp [hSocket] at hMem
    | some socket =>
        obtain ⟨event, hEvent, rfl⟩ := List.mem_map.mp hMem
        exact ⟨socket, rfl, CanSocket.fd_of_mem_ready (by simpa [hSocket] using hEvent)⟩
  have hEventFd {place : CanSocketPlace} :
      s.threadEventFd ∉ (((s.sockets place).map CanSocket.ready).getD []).map EpollEvent.fd := by
    intro hMem
    obtain ⟨socket, hSocket, hFd⟩ := hOwn hMem
    exact h.numbered.event place socket hSocket hFd.symm
  rw [readyEvents, List.map_append, List.map_append, List.nodup_append', List.nodup_append']
  refine ⟨⟨?_, hReady .current, ?_⟩, hReady .leftover, ?_⟩
  · split <;> simp
  · intro fd hCounter hCurrent
    split_ifs at hCounter
    · obtain rfl : fd = s.threadEventFd := by simpa using hCounter
      exact hEventFd hCurrent
    · simp at hCounter
  · intro fd hFirst hLeftover
    obtain ⟨second, hSecond, hSecondFd⟩ := hOwn hLeftover
    rcases List.mem_append.mp hFirst with hCounter | hCurrent
    · split_ifs at hCounter
      · obtain rfl : fd = s.threadEventFd := by simpa using hCounter
        exact hEventFd hLeftover
      · simp at hCounter
    · obtain ⟨first, hFirst, hFirstFd⟩ := hOwn hCurrent
      exact h.numbered.distinct first second hFirst hSecond (hFirstFd.symm.trans hSecondFd)

/-- What a step of the reaper leaves alone, and how it gets through its batch. -/
theorem ReapStep.frame {s t : Dispatcher Tid Func} {reaper : Reaper} {action : ReapAction}
    (hStep : ReapStep s reaper action t) :
    t.threadEventFd = s.threadEventFd ∧ t.controller = s.controller ∧
      (s.sockets.Numbered s.threadEventFd → t.sockets.Numbered s.threadEventFd) ∧
      ∃ pc, t.reapThread = some { reaper with pc } ∧
        (pc.unread.Sublist reaper.pc.unread ∨ pc.unread.Perm s.readyEvents) := by
  have hSet {place : CanSocketPlace} {socket rest : CanSocket} (hSocket : s.sockets place = some socket)
      (hFd : rest.fd = socket.fd) (hNumbered : s.sockets.Numbered s.threadEventFd) :
      (s.sockets.set place (some rest)).Numbered s.threadEventFd := by
    refine hNumbered.set fun new hNew => ?_
    cases hNew
    exact ⟨socket, hSocket, hFd⟩
  cases hStep with
  | epollWait hPc hSome hReady => exact ⟨rfl, rfl, id, _, rfl, .inr hReady⟩
  | received hPc hIn hFd hPlace hSocket hRead | readFailed hPc hIn hFd hPlace hSocket hRead =>
      exact ⟨rfl, rfl, hSet hSocket (CanSocket.fd_of_read hRead), _, rfl,
        .inl (by simp [hPc, ReaperPc.unread, ReaperPc.untested])⟩
  | fellAsleep hPc hIn hFd hPlace hSocket hRead =>
      exact ⟨rfl, rfl, hSet hSocket rfl, _, rfl, .inl (by simp [hPc, ReaperPc.unread, ReaperPc.untested])⟩
  | wokeReceived hPc hSocket hSleeping hTake | wokeFailed hPc hSocket hSleeping hTake =>
      exact ⟨rfl, rfl, fun hNumbered => hNumbered.woken hSocket hTake, _, rfl,
        .inl (by simp [hPc, ReaperPc.unread, ReaperPc.untested])⟩
  | interrupted hPc | interruptedStop hPc | waitFailed hPc | batchDone hPc | stopTaken hPc
  | stopNotTaken hPc | notReadable hPc | drained hPc | readClosed hPc | acquired hPc
  | faulted hPc | dropped hPc | called hPc | released hPc =>
      exact ⟨rfl, rfl, id, _, rfl, .inl (by simp [hPc, ReaperPc.unread, ReaperPc.untested])⟩

/-- A reaper that falls asleep has met a socket. -/
theorem ReapStep.sleepsOn {s t : Dispatcher Tid Func} {reaper moved : Reaper} {action : ReapAction}
    (hStep : ReapStep s reaper action t) (hMoved : t.reapThread = some moved) :
    moved.pc.sleepsOn ≠ some t.threadEventFd := by
  cases hStep with
  | fellAsleep hPc hIn hFd =>
      cases hMoved
      simpa [ReaperPc.sleepsOn] using hFd
  | _ =>
      cases hMoved
      simp [ReaperPc.sleepsOn]

theorem WellBatched.reap {s t : Dispatcher Tid Func} {reaper : Reaper} {action : ReapAction}
    (h : s.WellBatched) (hReaper : s.reapThread = some reaper)
    (hStep : ReapStep s reaper action t) : t.WellBatched := by
  have hAsleep {moved : Reaper} (hMoved : t.reapThread = some moved) := hStep.sleepsOn hMoved
  obtain ⟨hFd, hController, hNumbered, pc, hMoved, hBatch⟩ := hStep.frame
  refine ⟨hFd ▸ hNumbered h.numbered, ?_, fun _ => hAsleep, ?_⟩
  · intro moved hSame
    rw [hMoved] at hSame
    cases hSame
    rcases hBatch with hSub | hPerm
    · exact (h.nodup reaper hReaper).sublist (hSub.map _)
    · exact (hPerm.map _).nodup_iff.mpr h.readyEvents_nodup
  · intro hStopping moved hSame
    rw [hMoved] at hSame
    cases hSame
    exact h.stopping (hController ▸ hStopping) reaper hReaper

theorem WellBatched.start {s t : Dispatcher Tid Func} {action : StartAction}
    (h : s.WellBatched) (hStep : StartStep s action t) : t.WellBatched := by
  have hRead {socket rest : CanSocket} {frame : Option CanFrame} (hSocket : s.sockets .current = some socket)
      (hRead : socket.read = some (frame, rest)) :
      (s.sockets.set .current (some rest)).Numbered s.threadEventFd := by
    refine h.numbered.set fun new hNew => ?_
    cases hNew
    exact ⟨socket, hSocket, CanSocket.fd_of_read hRead⟩
  cases hStep with
  | called => exact ⟨h.numbered.release, h.nodup, h.asleep, by simp⟩
  | opened hPc hFd hLeftover => exact ⟨h.numbered.open hFd hLeftover, h.nodup, h.asleep, by simp⟩
  | bindFailed => exact ⟨h.numbered.close, h.nodup, h.asleep, by simp⟩
  | bound | unblocked | added | flushFailed =>
      exact ⟨h.numbered.modify fun _ => rfl, h.nodup, h.asleep, by simp⟩
  | flushed hPc hSocket hResult => exact ⟨hRead hSocket hResult, h.nodup, h.asleep, by simp [hPc]⟩
  | flushDone hPc hSocket hResult => exact ⟨hRead hSocket hResult, h.nodup, h.asleep, by simp⟩
  | spawned =>
      exact ⟨h.numbered, by simp [ReaperPc.unread, ReaperPc.untested], by simp [ReaperPc.sleepsOn], by simp⟩
  | openFailed | addFailed | alreadyRunning => exact ⟨h.numbered, h.nodup, h.asleep, by simp⟩

theorem WellBatched.stop {s t : Dispatcher Tid Func} {action : StopAction}
    (h : s.WellBatched) (hStep : StopStep s action t) : t.WellBatched := by
  cases hStep with
  | notRunning => exact h
  | @requested reaper hPc hReaper =>
      refine ⟨h.numbered, ?_, ?_, by simp⟩
      · intro moved hSame
        cases hSame
        exact h.nodup reaper hReaper
      · intro moved hSame
        cases hSame
        exact h.asleep reaper hReaper
  | written hPc => exact ⟨h.numbered, h.nodup, h.asleep, fun _ => h.stopping (.inl hPc)⟩
  | writeFailed => exact ⟨h.numbered, h.nodup, h.asleep, by simp⟩
  | joined => exact ⟨h.numbered, by simp, by simp, by simp⟩

theorem WellBatched.kernel {s t : Dispatcher Tid Func} {action : KernelAction}
    (h : s.WellBatched) (hStep : KernelStep s action t) : t.WellBatched := by
  cases hStep with
  | arrived hSocket | failed hSocket =>
      refine ⟨h.numbered.set fun new hNew => ?_, h.nodup, h.asleep, h.stopping⟩
      cases hNew
      exact ⟨_, hSocket, rfl⟩

variable [DecidableEq Tid]

theorem WellBatched.step {s t : Dispatcher Tid Func} {action : Action Tid Func}
    (h : s.WellBatched) (hStep : Step s action t) : t.WellBatched := by
  cases hStep with
  | reap hReaper hReap => exact h.reap hReaper hReap
  | register hRegister => cases hRegister <;> exact ⟨h.numbered, h.nodup, h.asleep, h.stopping⟩
  | start hStart => exact h.start hStart
  | stop hStop => exact h.stop hStop
  | kernel hKernel => exact h.kernel hKernel

theorem wellBatched_of_reachable {threadEventFd : Fd} {s : Dispatcher Tid Func}
    (h : (machine Tid Func).Reachable (init threadEventFd) s) : s.WellBatched := by
  refine h.invariant (P := WellBatched)
    ⟨CanSockets.numbered_none, by simp [init], by simp [init], by simp [init]⟩ ?_
  intro s action t hWell hStep
  exact hWell.step (machine_step hStep)

/-- For a reaper whose cycle began with the counter at zero: while no stop is
requested there is no count, and no event of the eventfd passes its stop test. -/
structure FreshReaper (threadEventFd : Fd) (counter : Nat) (reaper : Reaper) : Prop where
  counter : reaper.stopRequested = false → counter = 0
  untested : ∀ event ∈ reaper.pc.untested, event.fd = threadEventFd → reaper.stopRequested = true
  active : reaper.pc.active ≠ some threadEventFd

def Fresh (s : Dispatcher Tid Func) : Prop :=
  ∀ reaper, s.reapThread = some reaper → FreshReaper s.threadEventFd s.counter reaper

/-- A thread is created only while the eventfd counter is zero. -/
def SpawnsFresh (s : Dispatcher Tid Func) : Action Tid Func → Prop
  | .start .spawn => s.reapThread = none → s.counter = 0
  | _ => True

omit [DecidableEq Tid] in
theorem Fresh.reap {s t : Dispatcher Tid Func} {reaper : Reaper} {action : ReapAction}
    (h : s.Fresh) (hWell : s.WellBatched) (hReaper : s.reapThread = some reaper)
    (hStep : ReapStep s reaper action t) : t.Fresh := by
  have hFresh := h reaper hReaper
  have hUntested := hFresh.untested
  have hActive := hFresh.active
  intro moved hMoved
  cases hStep with
  | epollWait hPc hSome hReady =>
      cases hMoved
      refine ⟨hFresh.counter, ?_, by simp [ReaperPc.active]⟩
      intro event hMem hFd
      have hNonzero := hWell.counter_ne_zero (hReady.mem_iff.mp hMem) hFd
      by_contra hStop
      exact hNonzero (hFresh.counter (by simpa using hStop))
  | stopNotTaken hPc hTest =>
      cases hMoved
      simp only [hPc, ReaperPc.untested, List.mem_cons, forall_eq_or_imp] at hUntested
      refine ⟨hFresh.counter, hUntested.2, ?_⟩
      intro hEq
      have hFd := Option.some.inj hEq
      exact hTest ⟨hFd, hUntested.1 hFd⟩
  | drained hPc hIn hFd => simp [hPc, ReaperPc.active, hFd] at hActive
  | received hPc hIn hFd | fellAsleep hPc hIn hFd =>
      cases hMoved
      simp only [hPc, ReaperPc.untested] at hUntested
      exact ⟨hFresh.counter, hUntested, by simpa [ReaperPc.active] using hFd⟩
  | acquired hPc | wokeReceived hPc =>
      cases hMoved
      simp only [hPc, ReaperPc.untested, ReaperPc.active] at hUntested hActive
      exact ⟨hFresh.counter, hUntested, hActive⟩
  | interrupted | interruptedStop | waitFailed | batchDone | stopTaken =>
      cases hMoved
      exact ⟨hFresh.counter, by simp [ReaperPc.untested], by simp [ReaperPc.active]⟩
  | notReadable hPc | readFailed hPc | readClosed hPc | wokeFailed hPc | faulted hPc | dropped hPc
  | called hPc | released hPc =>
      cases hMoved
      simp only [hPc, ReaperPc.untested] at hUntested
      exact ⟨hFresh.counter, hUntested, by simp [ReaperPc.active]⟩

theorem Fresh.step {s t : Dispatcher Tid Func} {action : Action Tid Func}
    (h : s.Fresh) (hWell : s.WellBatched) (hSpawn : s.SpawnsFresh action)
    (hStep : Step s action t) : t.Fresh := by
  cases hStep with
  | reap hReaper hReap => exact h.reap hWell hReaper hReap
  | register hRegister => cases hRegister <;> exact h
  | start hStart =>
      cases hStart with
      | spawned hPc hNone =>
          intro moved hMoved
          cases hMoved
          exact ⟨fun _ => hSpawn hNone, by simp [ReaperPc.untested], by simp [ReaperPc.active]⟩
      | _ => exact h
  | stop hStop =>
      cases hStop with
      | requested hPc hReaper =>
          intro moved hMoved
          cases hMoved
          exact ⟨by simp, by simp, (h _ hReaper).active⟩
      | written hPc =>
          intro moved hMoved
          have hStopping := hWell.stopping (.inl hPc) moved hMoved
          exact ⟨by simp [hStopping], by simp [hStopping], (h moved hMoved).active⟩
      | joined => simp [Fresh]
      | notRunning | writeFailed => exact h
  | kernel hKernel => cases hKernel <;> exact h

/-- Where every thread starts with the counter at zero, all states are fresh. -/
theorem fresh_of_passes {threadEventFd : Fd} {actions : List (Action Tid Func)}
    (hSpawns : ∀ s action t, (machine Tid Func).Takes (init threadEventFd) actions s action t →
      s.SpawnsFresh action)
    {t : Dispatcher Tid Func} (h : (machine Tid Func).Passes (init threadEventFd) actions t) :
    t.Fresh := by
  refine h.induction (P := Fresh) (by simp [Fresh, init]) ?_
  intro s action t hTakes hFresh
  exact hFresh.step (wellBatched_of_reachable hTakes.source.reachable) (hSpawns s action t hTakes)
    (machine_step hTakes.step)

end Dispatcher
end HyCAN
