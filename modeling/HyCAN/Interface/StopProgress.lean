import HyCAN.Interface.StopWakeUp
import HyCAN.Transition.Ranking

/-! How long `stop` waits in `join`. The reaper has at most three events to get through before
it comes to the stop test of the eventfd, whatever arrives and whoever registers meanwhile. -/
namespace HyCAN

/-- How many events of the batch the reaper is not done with. -/
def ReaperPc.batch : ReaperPc → Nat
  | .scanning events => events.length
  | .reading _ events | .asleep _ events | .holding _ _ events | .locked _ _ events
  | .unlocking events | .fault events => events.length + 1
  | .waiting | .exited => 0

/-- The reaper's steps from a stop test on. Without an event of the eventfd, the batch ends
and the next one has such an event, behind at most two others. -/
def testSteps (threadEventFd : Fd) : List EpollEvent → Nat
  | [] => 13
  | event :: events => if event.fd = threadEventFd then 1 else 5 + testSteps threadEventFd events

/-- The reaper's steps until it exits, where it waits for nothing. -/
def ReaperPc.stepsLeft (threadEventFd : Fd) : ReaperPc → Nat
  | .waiting => 12
  | .scanning events => testSteps threadEventFd events
  | .reading _ events | .asleep _ events => testSteps threadEventFd events + 4
  | .holding _ _ events => testSteps threadEventFd events + 3
  | .locked _ _ events => testSteps threadEventFd events + 2
  | .unlocking events => testSteps threadEventFd events + 1
  | .fault _ | .exited => 0

theorem testSteps_le (threadEventFd : Fd) (events : List EpollEvent) :
    testSteps threadEventFd events ≤ 5 * events.length + 13 := by
  induction events with
  | nil => exact Nat.le_refl _
  | cons event events ih =>
      rw [testSteps, List.length_cons]
      split <;> omega

/-- An event of the eventfd ends the batch. -/
theorem testSteps_le_of_mem {threadEventFd : Fd} {events : List EpollEvent}
    (hMem : ∃ event ∈ events, event.fd = threadEventFd) :
    testSteps threadEventFd events + 4 ≤ 5 * events.length := by
  induction events with
  | nil => simp at hMem
  | cons event events ih =>
      rw [testSteps, List.length_cons]
      split
      · omega
      · next hFd =>
          have hRest : ∃ event ∈ events, event.fd = threadEventFd := by
            simpa [hFd] using hMem
          have hSteps := ih hRest
          omega

theorem ReaperPc.stepsLeft_le {pc : ReaperPc} (hBatch : pc.batch ≤ 3) (threadEventFd : Fd) :
    pc.stepsLeft threadEventFd ≤ 28 := by
  have hTests := testSteps_le threadEventFd
  cases pc with
  | waiting | fault events | exited => simp [stepsLeft]
  | scanning events | reading event events | asleep fd events | holding fd frame events
  | locked fd frame events | unlocking events =>
      have hEvents := hTests events
      simp only [batch, stepsLeft] at hBatch ⊢
      omega

namespace Dispatcher

open Transition

variable {Tid Func : Type}

/-- The reaper is between the stop test of an event of the eventfd and the read. -/
def Draining (s : Dispatcher Tid Func) : Prop :=
  ∃ reaper event events, s.reapThread = some reaper ∧ reaper.pc = .reading event events ∧
    event.epollIn = true ∧ event.fd = s.threadEventFd

/-- The reaper sleeps in a read of a socket. -/
def Asleep (s : Dispatcher Tid Func) : Prop :=
  ∃ reaper fd events, s.reapThread = some reaper ∧ reaper.pc = .asleep fd events

/-- Only in `ensure_connected`, before its `fcntl`, is there an open socket that blocks. -/
def Unblocked (s : Dispatcher Tid Func) : Prop :=
  ∀ place socket, place ≠ .closed → s.sockets place = some socket →
    socket.nonblocking = true ∨ place = .current ∧ (s.controller = .binding ∨ s.controller = .unblocking)

/-- No batch has more than three events, `stop` writes and waits only for a thread that
there is, and by then no socket blocks. -/
structure Stoppable (s : Dispatcher Tid Func) : Prop where
  batch : ∀ reaper, s.reapThread = some reaper → reaper.pc.batch ≤ 3
  present : s.controller = .writing ∨ s.controller = .joining → ∃ reaper, s.reapThread = some reaper
  unblocked : s.Unblocked

theorem readyEvents_length_le (s : Dispatcher Tid Func) : s.readyEvents.length ≤ 3 := by
  have hSocket (place : CanSocketPlace) : (((s.sockets place).map CanSocket.ready).getD []).length ≤ 1 := by
    cases s.sockets place with
    | none => simp
    | some socket =>
        rw [Option.map_some, Option.getD_some, CanSocket.ready]
        split <;> simp
  have hCounter : (if s.counter ≠ 0 then [⟨s.threadEventFd, true, false⟩] else [] :
      List EpollEvent).length ≤ 1 := by
    split <;> simp
  have hCurrent := hSocket .current
  have hLeftover := hSocket .leftover
  rw [readyEvents, List.length_append, List.length_append]
  omega

section Unblocked

variable {s t : Dispatcher Tid Func}

theorem Unblocked.all (h : s.Unblocked) (hController : s.controller ≠ .binding ∧ s.controller ≠ .unblocking)
    {place : CanSocketPlace} {socket : CanSocket} (hOpen : place ≠ .closed)
    (hSocket : s.sockets place = some socket) : socket.nonblocking = true := by
  rcases h place socket hOpen hSocket with hUnblocked | ⟨_, hBinding | hUnblocking⟩
  · exact hUnblocked
  · exact absurd hBinding hController.1
  · exact absurd hUnblocking hController.2

/-- A socket that takes the place of another one blocks no more than that. -/
theorem Unblocked.set {place : CanSocketPlace} {new : Option CanSocket} (h : s.Unblocked)
    (hNew : ∀ rest, new = some rest →
      ∃ socket, s.sockets place = some socket ∧ rest.nonblocking = socket.nonblocking)
    (hSockets : t.sockets = s.sockets.set place new)
    (hController : s.controller = .binding ∨ s.controller = .unblocking →
      t.controller = .binding ∨ t.controller = .unblocking) : t.Unblocked := by
  have hKept {other : CanSocketPlace} {socket : CanSocket} (hOpen : other ≠ .closed)
      (hSocket : s.sockets other = some socket) :
      socket.nonblocking = true ∨ other = .current ∧ (t.controller = .binding ∨ t.controller = .unblocking) :=
    (h other socket hOpen hSocket).imp_right fun hCurrent => ⟨hCurrent.1, hController hCurrent.2⟩
  intro other found hOpen hFound
  rw [hSockets] at hFound
  by_cases hPlace : other = place
  · subst hPlace
    rw [CanSockets.set_self] at hFound
    obtain ⟨socket, hSocket, hSame⟩ := hNew found hFound
    rw [hSame]
    exact hKept hOpen hSocket
  · rw [CanSockets.set_of_ne _ hPlace] at hFound
    exact hKept hOpen hFound

theorem Unblocked.modify {change : CanSocket → CanSocket} (h : s.Unblocked)
    (hSockets : t.sockets = s.sockets.modify change)
    (hChange : ∀ socket, (change socket).nonblocking = socket.nonblocking)
    (hController : s.controller = .binding ∨ s.controller = .unblocking →
      t.controller = .binding ∨ t.controller = .unblocking) : t.Unblocked := by
  refine h.set (fun rest hRest => ?_) hSockets hController
  obtain ⟨socket, hSocket, rfl⟩ := Option.map_eq_some_iff.mp hRest
  exact ⟨socket, hSocket, hChange socket⟩

/-- `ensure_connected` has a new socket, or has made it nonblocking. -/
theorem Unblocked.set_current {new : Option CanSocket} (h : s.Unblocked)
    (hNew : ∀ rest, new = some rest →
      rest.nonblocking = true ∨ t.controller = .binding ∨ t.controller = .unblocking)
    (hSockets : t.sockets = s.sockets.set .current new) : t.Unblocked := by
  intro other found hOpen hFound
  rw [hSockets] at hFound
  by_cases hPlace : other = .current
  · subst hPlace
    rw [CanSockets.set_self] at hFound
    exact (hNew found hFound).imp_right fun hController => ⟨rfl, hController⟩
  · rw [CanSockets.set_of_ne _ hPlace] at hFound
    exact .inl ((h other found hOpen hFound).resolve_right fun hCurrent => hPlace hCurrent.1)

theorem Unblocked.reap {reaper : Reaper} {action : ReapAction} (h : s.Unblocked)
    (hStep : ReapStep s reaper action t) : t.Unblocked := by
  cases hStep with
  | received hPc hIn hFd hPlace hSocket hRead | readFailed hPc hIn hFd hPlace hSocket hRead =>
      refine h.set (fun rest hNew => ⟨_, hSocket, ?_⟩) rfl id
      rw [← Option.some.inj hNew, (CanSocket.eq_of_read hRead).1]
  | fellAsleep hPc hIn hFd hPlace hSocket =>
      refine h.set (fun rest hNew => ⟨_, hSocket, ?_⟩) rfl id
      rw [← Option.some.inj hNew]
  | wokeReceived hPc hSocket hSleeping hTake | wokeFailed hPc hSocket hSleeping hTake =>
      refine h.set (fun rest hNew => ⟨_, hSocket, ?_⟩) rfl id
      split_ifs at hNew
      rw [← Option.some.inj hNew, (CanSocket.eq_of_take hTake).1]
  | epollWait | interrupted | interruptedStop | waitFailed | batchDone | stopTaken | stopNotTaken
  | notReadable | drained | readClosed | acquired | faulted | dropped | called | released => exact h

/-- The new socket blocks until its `fcntl`, and no other does. -/
theorem Unblocked.start {action : StartAction} (h : s.Unblocked) (hStep : StartStep s action t) :
    t.Unblocked := by
  -- the places of the sockets, outside of the two steps in which the new one blocks
  have hQuiet (hController : s.controller ≠ .binding ∧ s.controller ≠ .unblocking)
      (hSockets : t.sockets = s.sockets) : t.Unblocked := by
    intro place socket hOpen hSocket
    rw [hSockets] at hSocket
    exact .inl (h.all hController hOpen hSocket)
  cases hStep with
  | called hPc =>
      intro place socket hOpen hSocket
      obtain ⟨_, before, hBefore, hOld⟩ := CanSockets.leftover_of_release hOpen hSocket
      exact .inl (h.all (by simp [hPc]) hBefore hOld)
  | bindFailed hPc =>
      intro place socket hOpen hSocket
      obtain ⟨_, hOld⟩ := CanSockets.leftover_of_close hOpen hSocket
      exact (h .leftover socket (by decide) hOld).imp_right fun hCurrent => absurd hCurrent.1 (by decide)
  | opened => exact h.set_current (fun _ _ => .inr (.inl rfl)) rfl
  | bound => exact h.modify rfl (fun _ => rfl) fun _ => .inr rfl
  | unblocked =>
      refine h.set_current (fun rest hRest => .inl ?_) rfl
      obtain ⟨old, _, rfl⟩ := Option.map_eq_some_iff.mp hRest
      rfl
  | added hPc | flushFailed hPc => exact h.modify rfl (fun _ => rfl) (by simp [hPc])
  | flushed hPc hSocket hRead | flushDone hPc hSocket hRead =>
      refine h.set (fun rest hNew => ⟨_, hSocket, ?_⟩) rfl (by simp [hPc])
      rw [← Option.some.inj hNew, (CanSocket.eq_of_read hRead).1]
  | openFailed hPc | addFailed hPc | alreadyRunning hPc | spawned hPc =>
      exact hQuiet (by simp [hPc]) rfl

end Unblocked

theorem StartStep.not_joining {s t : Dispatcher Tid Func} {action : StartAction}
    (hStep : StartStep s action t) : s.controller ≠ .joining := by
  intro hJoining
  cases hStep with
  | called hPc | opened hPc | openFailed hPc | bound hPc | bindFailed hPc | unblocked hPc
  | added hPc | addFailed hPc | flushed hPc | flushDone hPc | flushFailed hPc | alreadyRunning hPc
  | spawned hPc => simp [hPc] at hJoining

theorem StopStep.eq_join {s t : Dispatcher Tid Func} {action : StopAction}
    (hStep : StopStep s action t) (hJoining : s.controller = .joining) : action = .join := by
  cases hStep with
  | joined => rfl
  | notRunning hPc | requested hPc | written hPc | writeFailed hPc => simp [hPc] at hJoining

/-- The reaper works through a batch, or it takes the next one. -/
theorem ReapStep.batch {s t : Dispatcher Tid Func} {reaper : Reaper} {action : ReapAction}
    (hStep : ReapStep s reaper action t) (hBatch : reaper.pc.batch ≤ 3) :
    ∃ moved, t.reapThread = some moved ∧ moved.pc.batch ≤ 3 := by
  cases hStep with
  | epollWait hPc hSome hReady =>
      refine ⟨_, rfl, ?_⟩
      show List.length _ ≤ 3
      rw [hReady.length_eq]
      exact s.readyEvents_length_le
  | interrupted hPc | interruptedStop hPc | waitFailed hPc | batchDone hPc | stopTaken hPc
  | stopNotTaken hPc | notReadable hPc | drained hPc | received hPc | readFailed hPc
  | readClosed hPc | fellAsleep hPc | wokeReceived hPc | wokeFailed hPc | acquired hPc | faulted hPc
  | dropped hPc | called hPc | released hPc =>
      refine ⟨_, rfl, ?_⟩
      simp only [hPc, ReaperPc.batch, List.length_cons] at hBatch ⊢
      omega

/-- `stop` has written and waits, and its wake-up is safe. -/
structure Stopping (s : Dispatcher Tid Func) : Prop where
  joining : s.controller = .joining
  well : s.WellBatched
  stoppable : s.Stoppable
  pending : s.WakeUpPending
  tested : ¬s.Draining

theorem Stopping.exists_reaper {s : Dispatcher Tid Func} (h : s.Stopping) :
    ∃ reaper, s.reapThread = some reaper ∧ reaper.stopRequested = true := by
  obtain ⟨reaper, hReaper⟩ := h.stoppable.present (.inr h.joining)
  exact ⟨reaper, hReaper, h.well.stopping (.inr h.joining) reaper hReaper⟩

/-- While `stop` waits, the reaper does not fall asleep any more. -/
theorem Stopping.read_ne_none {s : Dispatcher Tid Func} (h : s.Stopping) {place : CanSocketPlace}
    {socket : CanSocket} (hOpen : place ≠ .closed) (hSocket : s.sockets place = some socket) :
    socket.read ≠ none := by
  have hNonblocking := h.stoppable.unblocked.all (by simp [h.joining]) hOpen hSocket
  obtain ⟨frame, rest, hRead⟩ := CanSocket.read_of_nonblocking hNonblocking
  simp [hRead]

theorem keepsWakeUp_of_not_draining {s : Dispatcher Tid Func} (h : ¬s.Draining) (action : Action Tid Func) :
    s.KeepsWakeUp action := by
  cases action with
  | reap action =>
      cases action <;> try trivial
      intro _ reaper event events hReaper hPc hIn hFd
      exact h ⟨reaper, event, events, hReaper, hPc, hIn, hFd⟩
  | register tid action | start action | stop action | kernel action => trivial

/-- Once the stop is requested, no event of the eventfd passes its test. -/
theorem ReapStep.not_draining {s t : Dispatcher Tid Func} {reaper : Reaper} {action : ReapAction}
    (hStep : ReapStep s reaper action t) (hStop : reaper.stopRequested = true) : ¬t.Draining := by
  rintro ⟨moved, event, events, hMoved, hPc, hIn, hFd⟩
  cases hStep with
  | stopNotTaken hAt hTest =>
      cases hMoved
      cases hPc
      exact hTest ⟨hFd, hStop⟩
  | epollWait | interrupted | interruptedStop | waitFailed | batchDone | stopTaken | notReadable
  | drained | received | readFailed | readClosed | fellAsleep | wokeReceived | wokeFailed | acquired
  | faulted | dropped | called | released =>
      cases hMoved
      cases hPc

/-- With a wake-up pending, the event of the eventfd is in the next batch. -/
theorem testSteps_epollWait_le {s : Dispatcher Tid Func} {events : List EpollEvent}
    (hCounter : s.counter ≠ 0) (hReady : events.Perm s.readyEvents) :
    testSteps s.threadEventFd events ≤ 11 := by
  have hMem : ∃ event ∈ events, event.fd = s.threadEventFd := by
    refine ⟨⟨s.threadEventFd, true, false⟩, ?_, rfl⟩
    rw [hReady.mem_iff]
    simp [readyEvents, hCounter]
  have hSteps := testSteps_le_of_mem hMem
  have hLength := s.readyEvents_length_le
  rw [← hReady.length_eq] at hLength
  omega

/-- The reaper's steps until it exits. -/
def stepsLeft (s : Dispatcher Tid Func) : Nat :=
  (s.reapThread.map fun reaper => reaper.pc.stepsLeft s.threadEventFd).getD 0

def reapSteps : Action Tid Func → Nat
  | .reap _ => 1
  | .register _ _ | .start _ | .stop _ | .kernel _ => 0

theorem stepsLeft_of_reaper {s : Dispatcher Tid Func} {reaper : Reaper}
    (hReaper : s.reapThread = some reaper) :
    s.stepsLeft = reaper.pc.stepsLeft s.threadEventFd := by
  rw [stepsLeft, hReaper]
  rfl

/-- Every step of the reaper is one of those that it has left. -/
theorem ReapStep.stepsLeft_lt {s t : Dispatcher Tid Func} {reaper : Reaper} {action : ReapAction}
    (hStep : ReapStep s reaper action t) (hReaper : s.reapThread = some reaper)
    (hStopping : s.Stopping) : t.stepsLeft < s.stepsLeft := by
  have hStop := hStopping.well.stopping (.inr hStopping.joining) reaper hReaper
  have hPending := hStopping.pending hStopping.joining reaper hReaper
  rw [stepsLeft_of_reaper hReaper]
  cases hStep with
  | epollWait hPc hSome hReady =>
      have hCounter : s.counter ≠ 0 := by simpa [hPc, ReaperPc.untested] using hPending
      have hSteps := testSteps_epollWait_le hCounter hReady
      rw [hPc]
      show testSteps s.threadEventFd _ < 12
      omega
  | interrupted hPc hRunning => simp [hStop] at hRunning
  | stopTaken hPc hFd =>
      rw [hPc]
      show 0 < testSteps s.threadEventFd _
      rw [testSteps, if_pos hFd]
      exact Nat.one_pos
  | stopNotTaken hPc hTest =>
      rw [hPc]
      show testSteps s.threadEventFd _ + 4 < testSteps s.threadEventFd _
      rw [testSteps, if_neg fun hFd => hTest ⟨hFd, hStop⟩]
      omega
  | fellAsleep hPc hIn hFd hPlace hSocket hRead =>
      exact absurd hRead (hStopping.read_ne_none (CanSockets.place_of_placeOf hPlace).1 hSocket)
  | batchDone hPc | interruptedStop hPc | waitFailed hPc | notReadable hPc | drained hPc
  | received hPc | readFailed hPc | readClosed hPc | wokeReceived hPc | wokeFailed hPc | acquired hPc
  | faulted hPc | dropped hPc | called hPc | released hPc =>
      simp [hPc, stepsLeft, ReaperPc.stepsLeft, testSteps]

/-- What `stop` finds at any time while it waits. -/
inductive Answering (s : Dispatcher Tid Func) : Prop where
  | joins {t : Dispatcher Tid Func} (hJoin : s.stop .join = some t) : Answering s
  /-- The reaper goes on, and not just because a signal has interrupted it. -/
  | moves {reaper : Reaper} {action : ReapAction} {t : Dispatcher Tid Func}
      (hReaper : s.reapThread = some reaper) (hAction : action ≠ .interrupted ∧ action ≠ .waitFailed)
      (hStep : s.reapProcess reaper action = some t) : Answering s
  | locking {reaper : Reaper} {fd : Fd} {frame : CanFrame} {events : List EpollEvent}
      (hReaper : s.reapThread = some reaper) (hPc : reaper.pc = .holding fd frame events)
      (hLock : s.lock = true) : Answering s
  | faulted {reaper : Reaper} {events : List EpollEvent} (hReaper : s.reapThread = some reaper)
      (hPc : reaper.pc = .fault events) : Answering s

/-- A read of anything but the eventfd returns, or begins to sleep in the socket. -/
theorem exists_read_of_ne {s : Dispatcher Tid Func} {event : EpollEvent} (stop : Bool)
    (events : List EpollEvent) (hRead : event.epollIn = true → event.fd ≠ s.threadEventFd) :
    ∃ t, s.reapProcess ⟨stop, .reading event events⟩ .read = some t := by
  cases hIn : event.epollIn with
  | false => simp [reapProcess, hIn]
  | true =>
      have hFd := hRead hIn
      cases hPlace : s.sockets.placeOf event.fd with
      | none => simp [reapProcess, hIn, hFd, hPlace]
      | some place =>
          obtain ⟨_, socket, hSocket, _⟩ := CanSockets.place_of_placeOf hPlace
          simp [reapProcess, hIn, hFd, hPlace, hSocket]

/-- Only the lock, a bad identifier and a read that sleeps can keep the reaper from going on. -/
theorem Stopping.answering {s : Dispatcher Tid Func} (h : s.Stopping) (hAwake : ¬s.Asleep) :
    s.Answering := by
  obtain ⟨⟨stop, pc⟩, hReaper, hStop⟩ := h.exists_reaper
  cases hStop
  have hPending := h.pending h.joining _ hReaper
  cases pc with
  | waiting =>
      have hCounter : s.counter ≠ 0 := by simpa [ReaperPc.untested] using hPending
      have hSome : s.readyEvents ≠ [] := by simp [readyEvents, hCounter]
      have hStep : s.reapProcess ⟨true, .waiting⟩ (.epollWait s.readyEvents) =
          some (s.moveReaper ⟨true, .waiting⟩ (.scanning s.readyEvents)) := if_pos ⟨hSome, .refl _⟩
      exact .moves hReaper (by simp) hStep
  | scanning events =>
      obtain ⟨t, hStep⟩ : ∃ t, s.reapProcess ⟨true, .scanning events⟩ .test = some t := by
        cases events with
        | nil => exact ⟨_, rfl⟩
        | cons event events =>
            simp only [reapProcess]
            split <;> exact ⟨_, rfl⟩
      exact .moves hReaper (by simp) hStep
  | reading event events =>
      have hRead : event.epollIn = true → event.fd ≠ s.threadEventFd :=
        fun hIn hFd => h.tested ⟨_, event, events, hReaper, rfl, hIn, hFd⟩
      obtain ⟨t, hStep⟩ := exists_read_of_ne true events hRead
      exact .moves hReaper (by simp) hStep
  | asleep fd events => exact absurd ⟨_, fd, events, hReaper, rfl⟩ hAwake
  | holding fd frame events =>
      cases hLock : s.lock with
      | true => exact .locking hReaper rfl hLock
      | false =>
          have hStep : s.reapProcess ⟨true, .holding fd frame events⟩ .lock =
              some ({ s with lock := true }.moveReaper ⟨true, .holding fd frame events⟩
                (.locked fd frame events)) := if_neg (by simp [hLock])
          exact .moves hReaper (by simp) hStep
  | locked fd frame events =>
      obtain ⟨t, hStep⟩ : ∃ t, s.reapProcess ⟨true, .locked fd frame events⟩ .dispatch = some t := by
        simp only [reapProcess]
        rcases s.funcs[frame.canId.toNat]? with _ | _ | func <;> exact ⟨_, rfl⟩
      exact .moves hReaper (by simp) hStep
  | unlocking events =>
      have hStep : s.reapProcess ⟨true, .unlocking events⟩ .unlock =
          some ({ s with lock := false }.moveReaper ⟨true, .unlocking events⟩ (.scanning events)) := rfl
      exact .moves hReaper (by simp) hStep
  | fault events => exact .faulted hReaper rfl
  | exited =>
      refine .joins (t := { s with reapThread := none, controller := .idle }) ?_
      simp [Dispatcher.stop, h.joining, hReaper]

variable [DecidableEq Tid]

theorem Stoppable.step {s t : Dispatcher Tid Func} {action : Action Tid Func}
    (h : s.Stoppable) (hStep : Step s action t) : t.Stoppable := by
  cases hStep with
  | reap hReaper hReap =>
      obtain ⟨moved, hMoved, hBatch⟩ := hReap.batch (h.batch _ hReaper)
      refine ⟨?_, fun _ => ⟨moved, hMoved⟩, h.unblocked.reap hReap⟩
      intro same hSame
      rw [hMoved] at hSame
      cases hSame
      exact hBatch
  | register hRegister => cases hRegister <;> exact ⟨h.batch, h.present, h.unblocked⟩
  | kernel hKernel =>
      cases hKernel with
      | arrived hSocket | failed hSocket =>
          refine ⟨h.batch, h.present, h.unblocked.set (fun rest hNew => ⟨_, hSocket, ?_⟩) rfl id⟩
          rw [← Option.some.inj hNew]
  | start hStart =>
      have hUnblocked := h.unblocked.start hStart
      cases hStart with
      | flushed hPc => exact ⟨h.batch, by simp [hPc], hUnblocked⟩
      | spawned => exact ⟨by simp [ReaperPc.batch], by simp, hUnblocked⟩
      | called | opened | openFailed | bound | bindFailed | unblocked | added | addFailed | flushDone
      | flushFailed | alreadyRunning => exact ⟨h.batch, by simp, hUnblocked⟩
  | stop hStop =>
      have hQuiet {t : Dispatcher Tid Func} (hController : s.controller ≠ .binding ∧ s.controller ≠ .unblocking)
          (hSockets : t.sockets = s.sockets) : t.Unblocked := by
        intro place socket hOpen hSocket
        exact .inl (h.unblocked.all hController hOpen (hSockets ▸ hSocket))
      cases hStop with
      | notRunning => exact h
      | @requested reaper hPc hReaper =>
          refine ⟨?_, fun _ => ⟨_, rfl⟩, hQuiet (by simp [hPc]) rfl⟩
          intro moved hSame
          cases hSame
          exact h.batch reaper hReaper
      | written hPc => exact ⟨h.batch, fun _ => h.present (.inl hPc), hQuiet (by simp [hPc]) rfl⟩
      | writeFailed hPc => exact ⟨h.batch, by simp, hQuiet (by simp [hPc]) rfl⟩
      | joined hPc => exact ⟨by simp, by simp, hQuiet (by simp [hPc]) rfl⟩

theorem stoppable_of_reachable {threadEventFd : Fd} {s : Dispatcher Tid Func}
    (h : (machine Tid Func).Reachable (init threadEventFd) s) : s.Stoppable := by
  refine h.invariant (P := Stoppable) ⟨by simp [init], by simp [init], ?_⟩ ?_
  · intro place socket _ hSocket
    cases hSocket
  intro s action t hStoppable hStep
  exact hStoppable.step (machine_step hStep)

/-- Nothing but the return of `join` ends the waiting. -/
theorem Stopping.step {s t : Dispatcher Tid Func} {action : Action Tid Func} (h : s.Stopping)
    (hStep : Step s action t) (hNotJoin : action ≠ .stop .join) : t.Stopping := by
  have hPending := (hStep.wakeUpPending_iff h.well h.pending).mpr
    (keepsWakeUp_of_not_draining h.tested action)
  have hWell := h.well.step hStep
  have hStoppable := h.stoppable.step hStep
  have hJoining := h.joining
  cases hStep with
  | reap hReaper hReap =>
      have hStop := h.well.stopping (.inr h.joining) _ hReaper
      exact ⟨hReap.frame.2.1.trans hJoining, hWell, hStoppable, hPending, hReap.not_draining hStop⟩
  | register hRegister =>
      cases hRegister <;> exact ⟨hJoining, hWell, hStoppable, hPending, h.tested⟩
  | kernel hKernel =>
      cases hKernel <;> exact ⟨hJoining, hWell, hStoppable, hPending, h.tested⟩
  | start hStart => exact absurd hJoining hStart.not_joining
  | stop hStop => exact absurd (congrArg Action.stop (hStop.eq_join hJoining)) hNotJoin

theorem ranked_stopping : (machine Tid Func).Ranked Stopping stepsLeft reapSteps fun _ => 0 := by
  intro s action t hBefore hAfter hStep
  have hStep := machine_step hStep
  cases hStep with
  | reap hReaper hReap => exact hReap.stepsLeft_lt hReaper hBefore
  | register hRegister => cases hRegister <;> exact Nat.le_refl _
  | kernel hKernel => cases hKernel <;> exact Nat.le_refl _
  | start hStart => exact absurd hBefore.joining hStart.not_joining
  | stop hStop =>
      obtain rfl := hStop.eq_join hBefore.joining
      cases hStop
      exact absurd hAfter.joining (by simp)

theorem stopping_of_write {threadEventFd : Fd} {before s : Dispatcher Tid Func}
    (hReachable : (machine Tid Func).Reachable (init threadEventFd) before)
    (hWrite : (machine Tid Func).step before (.stop .write) = some s) (hTested : ¬before.Draining) :
    s.Stopping := by
  have hStep := machine_step hWrite
  have hWell := (wellBatched_of_reachable hReachable).step hStep
  have hStoppable := (stoppable_of_reachable hReachable).step hStep
  cases hStep with
  | stop hStop =>
      cases hStop with
      | written hPc hRoom =>
          exact ⟨rfl, hWell, hStoppable, fun _ _ _ _ => .inl (Nat.succ_ne_zero _), hTested⟩

/-- While `stop` waits, a reaper that sleeps has slept before. -/
theorem Stopping.asleep_step {s t : Dispatcher Tid Func} {action : Action Tid Func} (h : s.Stopping)
    (hStep : Step s action t) (hAsleep : t.Asleep) : s.Asleep := by
  obtain ⟨moved, fd, events, hMoved, hPc⟩ := hAsleep
  cases hStep with
  | reap hReaper hReap =>
      cases hReap with
      | fellAsleep hAt hIn hFd hPlace hSocket hRead =>
          exact absurd hRead (h.read_ne_none (CanSockets.place_of_placeOf hPlace).1 hSocket)
      | _ =>
          cases hMoved
          cases hPc
  | register hRegister => cases hRegister <;> exact ⟨moved, fd, events, hMoved, hPc⟩
  | kernel hKernel => cases hKernel <;> exact ⟨moved, fd, events, hMoved, hPc⟩
  | start hStart => exact absurd h.joining hStart.not_joining
  | stop hStop =>
      obtain rfl := hStop.eq_join h.joining
      cases hStop
      cases hMoved

omit [DecidableEq Tid] in
theorem asleep_of_write {s t : Dispatcher Tid Func} (hStep : StopStep s .write t) (hAsleep : t.Asleep) :
    s.Asleep := by
  cases hStep
  exact hAsleep

/-- From the write of `stop` until its `join` returns, in any interleaving with the threads that
register and with the frames that arrive, the reaper takes at most 28 steps; and at any
time its next step is enabled, unless it waits for `lock_`, a frame has led it outside `funcs`,
or it still sleeps in a read that it slept in when `stop` wrote. Only a reaper that was about to
read the eventfd when `stop` wrote is different. -/
theorem stop_answered {threadEventFd : Fd} {before s t : Dispatcher Tid Func}
    {actions : List (Action Tid Func)}
    (hReachable : (machine Tid Func).Reachable (init threadEventFd) before)
    (hWrite : (machine Tid Func).step before (.stop .write) = some s) (hTested : ¬before.Draining)
    (hRun : (machine Tid Func).run s actions = some t) (hWaits : .stop .join ∉ actions) :
    (actions.map reapSteps).sum ≤ 28 ∧ (t.Answering ∨ t.Asleep ∧ before.Asleep) := by
  have hStopping : ∀ u, (machine Tid Func).Passes s actions u →
      u.Stopping ∧ (u.Asleep → before.Asleep) := by
    intro u hPasses
    have hAllowed : ∀ action ∈ actions, action ≠ .stop .join := by
      rintro action hMem rfl
      exact hWaits hMem
    refine hPasses.invariant (P := fun u => u.Stopping ∧ (u.Asleep → before.Asleep)) hAllowed
      ⟨stopping_of_write hReachable hWrite hTested, ?_⟩ ?_
    · cases machine_step hWrite with
      | stop hStop => exact asleep_of_write hStop
    · rintro u action v hNotJoin ⟨hBefore, hSlept⟩ hStep
      have hStep := machine_step hStep
      exact ⟨hBefore.step hStep hNotJoin, fun hAsleep => hSlept (hBefore.asleep_step hStep hAsleep)⟩
  have hPaid := ranked_stopping.run_le hRun fun u hPasses => (hStopping u hPasses).1
  have hLeft : s.stepsLeft ≤ 28 := by
    have hStart := (hStopping s Machine.passes_start).1
    obtain ⟨reaper, hReaper, _⟩ := hStart.exists_reaper
    rw [stepsLeft_of_reaper hReaper]
    exact ReaperPc.stepsLeft_le (hStart.stoppable.batch reaper hReaper) _
  refine ⟨?_, ?_⟩
  · have hNothing : (actions.map fun _ => 0).sum = 0 := by simp
    omega
  · obtain ⟨hEnd, hSlept⟩ := hStopping t (.of_run hRun)
    by_cases hAsleep : t.Asleep
    · exact .inr ⟨hAsleep, hSlept hAsleep⟩
    · exact .inl (hEnd.answering hAsleep)

/-- The reaper has begun a batch with a frame. -/
def stoppedInBatch : List (Action Unit Unit) :=
  smoothStart 5 ++ [.kernel (.arrive .current { CanFrame.zero with canId := 1 }),
    .reap (.epollWait [⟨5, true, false⟩]), .stop .call]

/-- Another frame arrives, and its event is in a batch with the eventfd's. -/
def answer : List (Action Unit Unit) :=
  [.reap .test, .reap .read, .kernel (.arrive .current CanFrame.zero), .reap .lock, .reap .dispatch,
    .reap .unlock, .reap .test, .reap (.epollWait [⟨3, true, false⟩, ⟨5, true, false⟩]), .reap .test]

theorem stop_answered_in_batch : ∃ before s t : Dispatcher Unit Unit,
    (machine Unit Unit).run (init 3) stoppedInBatch = some before ∧
      (machine Unit Unit).step before (.stop .write) = some s ∧
      (machine Unit Unit).run s answer = some t ∧ (answer.map reapSteps).sum ≤ 28 ∧
      (t.Answering ∨ t.Asleep ∧ before.Asleep) := by
  obtain ⟨before, hBefore⟩ : ∃ before, (machine Unit Unit).run (init 3) stoppedInBatch = some before :=
    ⟨_, rfl⟩
  have hPc : before.reapThread = some ⟨true, .scanning [⟨5, true, false⟩]⟩ := by
    cases hBefore
    rfl
  obtain ⟨s, hWrite⟩ : ∃ s, (machine Unit Unit).step before (.stop .write) = some s := by
    cases hBefore
    exact ⟨_, rfl⟩
  obtain ⟨t, hRun⟩ : ∃ t, (machine Unit Unit).run s answer = some t := by
    cases hBefore
    cases hWrite
    exact ⟨_, rfl⟩
  have hTested : ¬before.Draining := by
    rintro ⟨reaper, event, events, hReaper, hAt, _⟩
    rw [hPc] at hReaper
    cases hReaper
    cases hAt
  have hWaits : .stop .join ∉ answer := by simp [answer]
  exact ⟨before, s, t, hBefore, hWrite, hRun,
    stop_answered ⟨_, hBefore⟩ hWrite hTested hRun hWaits⟩

end Dispatcher
end HyCAN
