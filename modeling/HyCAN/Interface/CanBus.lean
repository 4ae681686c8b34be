import HyCAN.Interface.DispatchTrace
import HyCAN.Interface.Sender

/-! A bus with any number of senders, each in a process of its own, with other nodes, and
with a dispatcher. The bus keeps the order of the frames, and may lose any of them before
they come to a socket of the dispatcher. -/
namespace HyCAN

open Transition

structure CanBus (Node Tid Func Frame : Type) where
  senders : Node → Sender Frame
  dispatcher : Dispatcher Tid Func
  /-- All frames that were put on the bus, with the senders that they are from. -/
  sent : List (Option Node × CanFrame)
  /-- The frames that are still to come to the dispatcher. -/
  transit : List CanFrame

/-- `ensure_connected` neither leaves descriptor 0 behind nor closes a socket that the
reaper sleeps in. -/
def Dispatcher.LeavesNoSocket {Tid Func : Type} (s : Dispatcher Tid Func) : Dispatcher.Action Tid Func → Prop
  | .start .call => (s.sockets .current).all fun socket => 0 < socket.fd ∧ socket.sleeping = false
  | .start .bindFail => (s.sockets .current).all fun socket => socket.sleeping = false
  | _ => True

instance {Tid Func : Type} (s : Dispatcher Tid Func) (action : Dispatcher.Action Tid Func) :
    Decidable (s.LeavesNoSocket action) := by
  unfold Dispatcher.LeavesNoSocket
  split <;> infer_instance

/-- Some frames in their order, with values of the eventfd between them. -/
inductive WithCounters : List CanFrame → List CanFrame → Prop where
  | nil : WithCounters [] []
  | frame {frames mixed : List CanFrame} (prior : WithCounters frames mixed) (frame : CanFrame) :
      WithCounters (frames ++ [frame]) (mixed ++ [frame])
  | counter {frames mixed : List CanFrame} (prior : WithCounters frames mixed) (counter : Nat) :
      WithCounters frames (mixed ++ [.ofCounter counter])

namespace CanBus

variable {Node Tid Func Frame : Type}

def start (application : Node → Nat → Bool) (interfaceName : List UInt8) (threadEventFd : Fd) :
    CanBus Node Tid Func Frame where
  senders := fun node => .start (application node) interfaceName
  dispatcher := .init threadEventFd
  sent := []
  transit := []

def sentBy [DecidableEq Node] (s : CanBus Node Tid Func Frame) (node : Node) : List CanFrame :=
  s.sent.filterMap fun put => if put.1 = some node then some put.2 else none

def put (s : CanBus Node Tid Func Frame) (origin : Option Node) (frames : List CanFrame) :
    CanBus Node Tid Func Frame :=
  { s with sent := s.sent ++ frames.map (origin, ·), transit := s.transit ++ frames }

inductive Action (Node Tid Func Frame : Type) where
  | sender (node : Node) (action : Sender.Action Frame)
  /-- A node that is no `Sender` sends. -/
  | other (frame : CanFrame)
  /-- A frame comes to these sockets of the dispatcher; the others have no room for it. -/
  | deliver (places : List CanSocketPlace)
  | dispatcher (action : Dispatcher.Action Tid Func)

variable [DecidableEq Node] [DecidableEq Tid] (toCanFrame : Frame → CanFrame)

def step (s : CanBus Node Tid Func Frame) : Action Node Tid Func Frame → Option (CanBus Node Tid Func Frame)
  | .sender node action =>
    ((Sender.machine toCanFrame).step (s.senders node) action).map fun after =>
      { s with senders := Function.update s.senders node after }.put (some node)
        (after.frames.drop (s.senders node).frames.length)
  | .other frame => some (s.put none [frame])
  | .deliver places =>
    match s.transit with
    | [] => none
    | frame :: transit =>
      if places.Nodup then
        ((Dispatcher.machine Tid Func).run s.dispatcher
          (places.map fun place => .kernel (.arrive place frame))).map fun dispatcher =>
            { s with dispatcher, transit }
      else none
  -- frames come to a socket from the bus only
  | .dispatcher (.kernel (.arrive ..)) => none
  | .dispatcher action =>
    ((Dispatcher.machine Tid Func).step s.dispatcher action).map fun dispatcher => { s with dispatcher }

def machine : Machine (CanBus Node Tid Func Frame) (Action Node Tid Func Frame) := ⟨step toCanFrame⟩

/-- The condition on the steps of the dispatcher. -/
def LeavesNoSocket (s : CanBus Node Tid Func Frame) : Action Node Tid Func Frame → Prop
  | .dispatcher action => s.dispatcher.LeavesNoSocket action
  | _ => True

instance (s : CanBus Node Tid Func Frame) (action : Action Node Tid Func Frame) :
    Decidable (s.LeavesNoSocket action) := by
  unfold LeavesNoSocket
  split <;> infer_instance

end CanBus

namespace Sender

variable {Frame : Type} {toCanFrame : Frame → CanFrame} {s t : Sender Frame}

/-- What is on the sockets stays, and a call adds to it. -/
theorem ExactlyOnce.frames_append (h : s.ExactlyOnce toCanFrame) {action : Action Frame}
    (hStep : (machine toCanFrame).step s action = some t) :
    t.frames = s.frames ++ t.frames.drop s.frames.length := by
  have hPrefix : s.frames <+: t.frames := by
    cases action with
    | send frame faults =>
        obtain ⟨⟨result, u⟩, hSend, rfl⟩ := Option.map_eq_some_iff.mp hStep
        exact ⟨_, (h.owned.send hSend).frames.symm⟩
    | openForeign fd | closeForeign fd =>
        obtain ⟨sockets, _, rfl⟩ := Option.map_eq_some_iff.mp hStep
        exact List.prefix_rfl
  exact (List.prefix_iff_eq_append.mp hPrefix).symm

end Sender

namespace Dispatcher

variable {Tid Func : Type} {s t : Dispatcher Tid Func}

/-- The frames in the buffer of the socket. -/
def queued (s : Dispatcher Tid Func) : List CanFrame :=
  ((s.sockets .current).map CanSocket.queue).getD []

/-- There is no socket besides that of `sock_fd`. -/
def OneSocket (s : Dispatcher Tid Func) : Prop :=
  ∀ place, place ≠ .current → s.sockets place = none

def arrived : Action Tid Func → List CanFrame
  | .kernel (.arrive _ frame) => [frame]
  | _ => []

/-- The frames that were read by the reaper, and those that it may still read. -/
def taken (s : Dispatcher Tid Func) : List CanFrame :=
  CallbackSpec.receivedFrames s.log ++ s.queued

theorem queued_of_socket {socket : CanSocket} (hSocket : s.sockets .current = some socket) :
    s.queued = socket.queue := by
  simp [queued, hSocket]

section OneSocket

variable {place : CanSocketPlace} {socket : CanSocket}

theorem OneSocket.place_eq (h : s.OneSocket) (hSocket : s.sockets place = some socket) : place = .current := by
  by_contra hNe
  rw [h place hNe] at hSocket
  cases hSocket

theorem OneSocket.set {new : Option CanSocket} (h : s.OneSocket)
    (hSockets : t.sockets = s.sockets.set .current new) :
    t.OneSocket := by
  intro place hNe
  rw [hSockets, CanSockets.set_of_ne _ hNe]
  exact h place hNe

theorem OneSocket.reap {reaper : Reaper} {action : ReapAction} (h : s.OneSocket)
    (hStep : ReapStep s reaper action t) : t.OneSocket := by
  cases hStep with
  | received _ _ _ _ hSocket | readFailed _ _ _ _ hSocket | fellAsleep _ _ _ _ hSocket
  | wokeReceived _ hSocket | wokeFailed _ hSocket =>
      cases h.place_eq hSocket
      exact h.set rfl
  | epollWait | interrupted | interruptedStop | waitFailed | batchDone | stopTaken | stopNotTaken
  | notReadable | drained | readClosed | acquired | faulted | dropped | called | released => exact h

/-- A socket that no read sleeps in is gone when it is closed. -/
theorem OneSocket.close (h : s.OneSocket)
    (hAwake : (s.sockets .current).all fun socket => socket.sleeping = false) {place : CanSocketPlace}
    (hNe : place ≠ .current) : s.sockets.close place = none := by
  cases hSocket : s.sockets .current with
  | none => simpa only [CanSockets.close, hSocket] using h place hNe
  | some socket =>
      have hSleeping : socket.sleeping = false := by simpa [hSocket] using hAwake
      simp only [CanSockets.close, hSocket, hSleeping, Bool.false_eq_true, ↓reduceIte]
      rw [CanSockets.set_of_ne _ hNe]
      exact h place hNe

theorem OneSocket.step [DecidableEq Tid] {action : Action Tid Func} (h : s.OneSocket)
    (hStep : Step s action t) (hLeaves : s.LeavesNoSocket action) : t.OneSocket := by
  cases hStep with
  | reap hReaper hReap => exact h.reap hReap
  | register hRegister => cases hRegister <;> exact h
  | stop hStop => cases hStop <;> exact h
  | kernel hKernel =>
      cases hKernel with
      | arrived hSocket | failed hSocket =>
          cases h.place_eq hSocket
          exact h.set rfl
  | start hStart =>
      cases hStart with
      | called hPc =>
          intro place hNe
          show s.sockets.release place = none
          cases hSocket : s.sockets .current with
          | none => simpa only [CanSockets.release, hSocket] using h place hNe
          | some socket =>
              obtain ⟨hFd, hSleeping⟩ : 0 < socket.fd ∧ socket.sleeping = false := by
                simpa [LeavesNoSocket, hSocket] using hLeaves
              simp only [CanSockets.release, hSocket, hFd, ↓reduceIte]
              exact h.close (by simp [hSocket, hSleeping]) hNe
      | bindFailed hPc =>
          intro place hNe
          exact h.close hLeaves hNe
      | opened | bound | unblocked | added | flushed | flushDone | flushFailed => exact h.set rfl
      | openFailed | addFailed | alreadyRunning | spawned => exact h

end OneSocket

/-- A step that receives nothing, and leaves in the buffer a part of what was there. -/
theorem taken_sublist_of_queue (hLog : CallbackSpec.receivedFrames t.log = CallbackSpec.receivedFrames s.log)
    (hQueue : t.queued.Sublist s.queued) : t.taken.Sublist s.taken := by
  unfold taken
  rw [hLog]
  exact hQueue.append_left _

/-- A frame goes from the buffer to the reaper. -/
theorem taken_of_received {socket rest : CanSocket} {frame : CanFrame}
    (hSocket : s.sockets .current = some socket)
    (hQueue : (some frame).toList ++ rest.queue = socket.queue) (hRest : t.queued = rest.queue)
    (hLog : t.log = s.log ++ [.received frame]) : t.taken = s.taken := by
  rw [taken, taken, hRest, queued_of_socket hSocket, ← hQueue, hLog]
  simp [CallbackSpec.receivedFrames]

theorem taken_reap {reaper : Reaper} {action : ReapAction} (hOne : s.OneSocket)
    (hStep : ReapStep s reaper action t) : t.taken.Sublist s.taken := by
  cases hStep with
  | received hPc hIn hFd hPlace hSocket hRead =>
      cases hOne.place_eq hSocket
      rw [taken_of_received hSocket (CanSocket.eq_of_read hRead).2 (by simp [queued]) rfl]
  | wokeReceived hPc hSocket hSleeping hTake =>
      cases hOne.place_eq hSocket
      rw [taken_of_received hSocket (CanSocket.eq_of_take hTake).2 (by simp [queued, CanSockets.woken]) rfl]
  | readFailed hPc hIn hFd hPlace hSocket hRead =>
      cases hOne.place_eq hSocket
      refine taken_sublist_of_queue rfl ?_
      rw [queued_of_socket hSocket, ← (CanSocket.eq_of_read hRead).2]
      simp [queued]
  | wokeFailed hPc hSocket hSleeping hTake =>
      cases hOne.place_eq hSocket
      refine taken_sublist_of_queue rfl ?_
      rw [queued_of_socket hSocket, ← (CanSocket.eq_of_take hTake).2]
      simp [queued, CanSockets.woken]
  | fellAsleep hPc hIn hFd hPlace hSocket hRead =>
      cases hOne.place_eq hSocket
      refine taken_sublist_of_queue rfl ?_
      rw [queued_of_socket hSocket]
      simp [queued]
  | dropped | called =>
      refine taken_sublist_of_queue ?_ (List.Sublist.refl _)
      simp [CallbackSpec.receivedFrames]
  | epollWait | interrupted | interruptedStop | waitFailed | batchDone | stopTaken | stopNotTaken
  | notReadable | drained | readClosed | acquired | faulted | released =>
      exact taken_sublist_of_queue rfl (List.Sublist.refl _)

/-- A change of the socket that its buffer is no part of. -/
theorem taken_of_modify {change : CanSocket → CanSocket} (hLog : t.log = s.log)
    (hSockets : t.sockets = s.sockets.modify change)
    (hChange : ∀ socket, (change socket).queue = socket.queue) : t.taken.Sublist s.taken := by
  have hQueue : t.queued = s.queued := by
    cases hSocket : s.sockets .current with
    | none => simp [queued, hSockets, CanSockets.modify, hSocket]
    | some socket => simp [queued, hSockets, CanSockets.modify, hSocket, hChange]
  rw [taken, taken, hLog, hQueue]

/-- No step takes a frame that has not arrived, or one frame twice. -/
theorem taken_step [DecidableEq Tid] {action : Action Tid Func} (hOne : s.OneSocket)
    (hStep : Step s action t) :
    t.taken.Sublist (s.taken ++ arrived action) := by
  have hKept (hSame : t.taken.Sublist s.taken) : t.taken.Sublist (s.taken ++ arrived action) :=
    hSame.trans (List.sublist_append_left _ _)
  cases hStep with
  | reap hReaper hReap => exact hKept (taken_reap hOne hReap)
  | register hRegister =>
      cases hRegister with
      | stored =>
          refine hKept (taken_sublist_of_queue ?_ (List.Sublist.refl _))
          simp [CallbackSpec.receivedFrames]
      | called | acquired | left | released =>
          exact hKept (taken_sublist_of_queue rfl (List.Sublist.refl _))
  | start hStart =>
      cases hStart with
      | called => exact hKept (taken_sublist_of_queue rfl (by simp [queued, CanSockets.release_current]))
      | bindFailed => exact hKept (taken_sublist_of_queue rfl (by simp [queued, CanSockets.close_current]))
      | opened => exact hKept (taken_sublist_of_queue rfl (by simp [queued, CanSocket.opened]))
      | bound | unblocked | added | flushFailed =>
          exact hKept (taken_of_modify rfl rfl fun _ => rfl)
      | flushed hPc hSocket hRead | flushDone hPc hSocket hRead =>
          refine hKept (taken_sublist_of_queue rfl ?_)
          rw [queued_of_socket hSocket, ← (CanSocket.eq_of_read hRead).2]
          simp [queued]
      | openFailed | addFailed | alreadyRunning | spawned =>
          exact hKept (taken_sublist_of_queue rfl (List.Sublist.refl _))
  | stop hStop =>
      cases hStop with
      | notRunning | requested | written | writeFailed | joined =>
          exact hKept (taken_sublist_of_queue rfl (List.Sublist.refl _))
  | kernel hKernel =>
      cases hKernel with
      | arrived hSocket =>
          cases hOne.place_eq hSocket
          simp [taken, queued, hSocket, arrived]
      | failed hSocket =>
          cases hOne.place_eq hSocket
          refine hKept (taken_sublist_of_queue rfl ?_)
          simp [queued, hSocket]

/-- A frame comes once to the one socket, or is lost. -/
theorem OneSocket.delivered [DecidableEq Tid] {places : List CanSocketPlace} {frame : CanFrame}
    (h : s.OneSocket) (hDistinct : places.Nodup)
    (hRun : (machine Tid Func).run s (places.map fun place => .kernel (.arrive place frame)) = some t) :
    t = s ∨ Step s (.kernel (.arrive .current frame)) t := by
  cases places with
  | nil => exact .inl (Option.some.inj hRun).symm
  | cons place others =>
      obtain ⟨next, hStep, hRest⟩ := Option.bind_eq_some_iff.mp hRun
      have hFirst : Step s (.kernel (.arrive place frame)) next := machine_step hStep
      have hPlace {s t : Dispatcher Tid Func} {place : CanSocketPlace} (hOne : s.OneSocket)
          (hArrives : Step s (.kernel (.arrive place frame)) t) : place = .current := by
        cases hArrives with
        | kernel hKernel =>
            cases hKernel with
            | arrived hSocket => exact hOne.place_eq hSocket
      cases hPlace h hFirst
      cases others with
      | nil => exact .inr (Option.some.inj hRest ▸ hFirst)
      | cons other others =>
          obtain ⟨last, hSecond, _⟩ := Option.bind_eq_some_iff.mp hRest
          -- the socket is named twice
          cases hPlace (h.step hFirst trivial) (machine_step hSecond)
          simp at hDistinct

/-- The place of the reaper that has a value of the eventfd in its hands. -/
def HoldsCounter (threadEventFd : Fd) (pc : ReaperPc) (frame : CanFrame) : Prop :=
  ∃ events, pc = .holding threadEventFd frame events ∨ pc = .locked threadEventFd frame events

/-- Every callback got a frame that was read from the CAN socket, in the order of the reads
and each at most once, or a value of the eventfd. -/
structure Sourced (s : Dispatcher Tid Func) : Prop where
  calls : ∃ frames, WithCounters frames ((invocations s.log).map Prod.snd) ∧
    (frames ++ s.inFlight.toList).Sublist (CallbackSpec.receivedFrames s.log)
  counter : ∀ reaper, s.reapThread = some reaper → ∀ frame, HoldsCounter s.threadEventFd reaper.pc frame →
    ∃ counter, frame = .ofCounter counter

/-- A step that invokes nothing. -/
theorem Sourced.quiet (h : s.Sourced) (hInvoked : invocations t.log = invocations s.log)
    (hReceived : CallbackSpec.receivedFrames t.log = CallbackSpec.receivedFrames s.log)
    (hFlight : t.inFlight.toList.Sublist s.inFlight.toList)
    (hCounter : ∀ reaper, t.reapThread = some reaper → ∀ frame, HoldsCounter t.threadEventFd reaper.pc frame →
      ∃ counter, frame = .ofCounter counter) : t.Sourced := by
  obtain ⟨frames, hMixed, hFrames⟩ := h.calls
  refine ⟨⟨frames, hInvoked ▸ hMixed, ?_⟩, hCounter⟩
  rw [hReceived]
  exact (hFlight.append_left frames).trans hFrames

/-- A step of another thread than the reaper. -/
theorem Sourced.elsewhere (h : s.Sourced) (hInvoked : invocations t.log = invocations s.log)
    (hReceived : CallbackSpec.receivedFrames t.log = CallbackSpec.receivedFrames s.log)
    (hReaper : t.reapThread = s.reapThread) (hFd : t.threadEventFd = s.threadEventFd) : t.Sourced := by
  refine h.quiet hInvoked hReceived ?_ ?_
  · simp [inFlight, hReaper, hFd]
  · intro reaper hSame frame hHolds
    rw [hReaper] at hSame
    rw [hFd] at hHolds
    exact h.counter reaper hSame frame hHolds

/-- The reaper goes on to a place in which it has no frame. -/
theorem Sourced.moved {stopRequested : Bool} {pc : ReaperPc} (h : s.Sourced)
    (hInvoked : invocations t.log = invocations s.log)
    (hReceived : CallbackSpec.receivedFrames t.log = CallbackSpec.receivedFrames s.log)
    (hMoved : t.reapThread = some ⟨stopRequested, pc⟩) (hFlight : pc.inFlight t.threadEventFd = none)
    (hCounter : ∀ frame, HoldsCounter t.threadEventFd pc frame → ∃ counter, frame = .ofCounter counter) :
    t.Sourced := by
  refine h.quiet hInvoked hReceived ?_ ?_
  · simp [inFlight_of_reaper hMoved, hFlight]
  · intro other hOther frame hHolds
    rw [hMoved, Option.some.injEq] at hOther
    rw [← hOther] at hHolds
    exact hCounter frame hHolds

/-- A frame that was read is in the reaper's hands. -/
theorem Sourced.received {reaper : Reaper} {fd : Fd} {frame : CanFrame} {events : List EpollEvent}
    (h : s.Sourced) (hReaper : s.reapThread = some reaper) (hIdle : reaper.pc.inFlight s.threadEventFd = none)
    (hFd : fd ≠ s.threadEventFd) (hLog : t.log = s.log ++ [.received frame])
    (hThread : t.threadEventFd = s.threadEventFd)
    (hMoved : t.reapThread = some { reaper with pc := .holding fd frame events }) : t.Sourced := by
  obtain ⟨frames, hMixed, hFrames⟩ := h.calls
  rw [inFlight_of_reaper hReaper, hIdle] at hFrames
  refine ⟨⟨frames, by simpa [hLog] using hMixed, ?_⟩, ?_⟩
  · have hKept : frames.Sublist (CallbackSpec.receivedFrames s.log) := by simpa using hFrames
    rw [inFlight_of_reaper hMoved, hThread, hLog]
    simpa [ReaperPc.inFlight, hFd, CallbackSpec.receivedFrames] using hKept.append_right [frame]
  · rintro other hOther held ⟨_, hHolding | hLocked⟩
    · rw [hMoved] at hOther
      cases hOther
      exact absurd ((ReaperPc.holding.inj hHolding).1.trans hThread) hFd
    · rw [hMoved] at hOther
      cases hOther
      cases hLocked

theorem Sourced.reap {reaper : Reaper} {action : ReapAction} (h : s.Sourced) (hWell : s.WellBatched)
    (hReaper : s.reapThread = some reaper) (hStep : ReapStep s reaper action t) : t.Sourced := by
  obtain ⟨frames, hMixed, hFrames⟩ := h.calls
  rw [inFlight_of_reaper hReaper] at hFrames
  cases hStep with
  | received hPc hIn hFd => exact h.received hReaper (by rw [hPc]; rfl) hFd rfl rfl rfl
  | @wokeReceived fd events place socket rest frame hPc =>
      have hFd : fd ≠ s.threadEventFd := by
        simpa [hPc, ReaperPc.sleepsOn] using hWell.asleep reaper hReaper
      exact h.received hReaper (by rw [hPc]; rfl) hFd rfl rfl rfl
  | @drained event events hPc hIn hFd hCounter =>
      refine h.moved rfl rfl rfl (by simp [ReaperPc.inFlight]) ?_
      rintro frame ⟨_, hHolding | hLocked⟩
      · exact ⟨_, (ReaperPc.holding.inj hHolding).2.1.symm⟩
      · cases hLocked
  | @acquired fd frame events hPc hFree =>
      refine h.quiet rfl rfl ?_ ?_
      · rw [inFlight_of_reaper hReaper, hPc]
        exact List.Sublist.refl _
      · rintro other hOther held ⟨_, hHolding | hLocked⟩
        · cases hOther
          cases hHolding
        · cases hOther
          obtain ⟨hFd, hFrame, _⟩ := ReaperPc.locked.inj hLocked
          rw [← hFrame]
          exact h.counter reaper hReaper frame ⟨events, .inl (hPc.trans (by rw [hFd]; rfl))⟩
  | @called fd frame events func hPc hEntry =>
      have hInvoked : (invocations (s.log ++ [.lookedUp, .invoked func frame])).map Prod.snd =
          (invocations s.log).map Prod.snd ++ [frame] := by simp
      have hReceived : CallbackSpec.receivedFrames (s.log ++ [.lookedUp, .invoked func frame]) =
          CallbackSpec.receivedFrames s.log := by simp [CallbackSpec.receivedFrames]
      rw [hPc] at hFrames
      constructor
      · by_cases hFd : fd = s.threadEventFd
        · obtain ⟨counter, rfl⟩ := h.counter reaper hReaper frame ⟨events, .inr (hFd ▸ hPc)⟩
          refine ⟨frames, hInvoked ▸ hMixed.counter counter, ?_⟩
          simpa [inFlight, ReaperPc.inFlight, hFd, hReceived] using hFrames
        · refine ⟨frames ++ [frame], hInvoked ▸ hMixed.frame frame, ?_⟩
          simpa [inFlight, ReaperPc.inFlight, hFd, hReceived] using hFrames
      · rintro other hOther held ⟨_, hHolding | hLocked⟩
        · cases hOther
          cases hHolding
        · cases hOther
          cases hLocked
  | dropped =>
      refine h.moved (by simp) (by simp [CallbackSpec.receivedFrames]) rfl rfl ?_
      rintro frame ⟨_, hHolding | hLocked⟩
      · cases hHolding
      · cases hLocked
  | epollWait | interrupted | interruptedStop | waitFailed | batchDone | stopTaken | stopNotTaken
  | notReadable | readFailed | readClosed | fellAsleep | wokeFailed | faulted | released =>
      refine h.moved rfl rfl rfl rfl ?_
      rintro frame ⟨_, hHolding | hLocked⟩
      · cases hHolding
      · cases hLocked

theorem Sourced.step [DecidableEq Tid] {action : Action Tid Func} (h : s.Sourced) (hWell : s.WellBatched)
    (hStep : Step s action t) : t.Sourced := by
  cases hStep with
  | reap hReaper hReap => exact h.reap hWell hReaper hReap
  | register hRegister =>
      cases hRegister with
      | stored => exact h.elsewhere (by simp) (by simp [CallbackSpec.receivedFrames]) rfl rfl
      | called | acquired | left | released => exact h.elsewhere rfl rfl rfl rfl
  | start hStart =>
      cases hStart with
      | spawned hPc hNone =>
          refine h.moved rfl rfl rfl rfl ?_
          rintro frame ⟨_, hHolding | hLocked⟩
          · cases hHolding
          · cases hLocked
      | called | opened | openFailed | bound | bindFailed | unblocked | added | addFailed | flushed
      | flushDone | flushFailed | alreadyRunning => exact h.elsewhere rfl rfl rfl rfl
  | stop hStop =>
      cases hStop with
      | requested hPc hReaper =>
          refine h.quiet rfl rfl ?_ ?_
          · rw [inFlight_of_reaper hReaper]
            exact List.Sublist.refl _
          · intro other hOther frame hHolds
            cases hOther
            exact h.counter _ hReaper frame hHolds
      | joined hPc hReaper hExited =>
          refine h.quiet rfl rfl (List.nil_sublist _) ?_
          intro reaper hNone
          cases hNone
      | notRunning | written | writeFailed => exact h.elsewhere rfl rfl rfl rfl
  | kernel hKernel =>
      cases hKernel with
      | arrived | failed => exact h.elsewhere rfl rfl rfl rfl

end Dispatcher

namespace CanBus

variable {Node Tid Func Frame : Type} {toCanFrame : Frame → CanFrame} {s t : CanBus Node Tid Func Frame}

section Put

variable (s) (origin : Option Node) (frames : List CanFrame)

@[simp] theorem put_senders : (s.put origin frames).senders = s.senders := rfl
@[simp] theorem put_dispatcher : (s.put origin frames).dispatcher = s.dispatcher := rfl
@[simp] theorem put_transit : (s.put origin frames).transit = s.transit ++ frames := rfl

@[simp] theorem put_sent :
    (s.put origin frames).sent.map Prod.snd = s.sent.map Prod.snd ++ frames := by
  simp [put]

variable [DecidableEq Node] {node : Node}

theorem sentBy_put_other (hOther : origin ≠ some node) : (s.put origin frames).sentBy node = s.sentBy node := by
  simp [put, sentBy, List.filterMap_append, hOther]

theorem sentBy_put_self : (s.put (some node) frames).sentBy node = s.sentBy node ++ frames := by
  simp [put, sentBy, List.filterMap_append]

end Put

variable [DecidableEq Node]

/-- What the bus keeps. A frame is in one place at most: read by the reaper, in the buffer of
the socket, or on its way to it. -/
structure Conveys (toCanFrame : Frame → CanFrame) (s : CanBus Node Tid Func Frame) : Prop where
  senders : ∀ node, (s.senders node).ExactlyOnce toCanFrame
  sentBy : ∀ node, s.sentBy node = (s.senders node).frames
  taken : (s.dispatcher.taken ++ s.transit).Sublist (s.sent.map Prod.snd)
  sourced : s.dispatcher.Sourced
  well : s.dispatcher.WellBatched
  one : s.dispatcher.OneSocket

/-- No socket has room for the frame. -/
theorem Conveys.lost {frame : CanFrame} {transit : List CanFrame} (h : s.Conveys toCanFrame)
    (hTransit : s.transit = frame :: transit) :
    ({ s with transit } : CanBus Node Tid Func Frame).Conveys toCanFrame := by
  refine ⟨h.senders, h.sentBy, ?_, h.sourced, h.well, h.one⟩
  have hTaken := h.taken
  rw [hTransit] at hTaken
  exact ((List.sublist_cons_self frame transit).append_left _).trans hTaken

variable [DecidableEq Tid]

theorem Conveys.dispatcher (h : s.Conveys toCanFrame) {action : Dispatcher.Action Tid Func}
    {dispatcher : Dispatcher Tid Func} {transit : List CanFrame}
    (hStep : Dispatcher.Step s.dispatcher action dispatcher) (hLeaves : s.dispatcher.LeavesNoSocket action)
    (hTransit : s.transit = Dispatcher.arrived action ++ transit) :
    ({ s with dispatcher, transit } : CanBus Node Tid Func Frame).Conveys toCanFrame := by
  refine ⟨h.senders, h.sentBy, ?_, h.sourced.step h.well hStep, h.well.step hStep, h.one.step hStep hLeaves⟩
  have hTaken := (Dispatcher.taken_step h.one hStep).append_right transit
  rw [List.append_assoc, ← hTransit] at hTaken
  exact hTaken.trans h.taken

theorem Conveys.step {action : Action Node Tid Func Frame} (h : s.Conveys toCanFrame)
    (hLeaves : s.LeavesNoSocket action) (hStep : (machine toCanFrame).step s action = some t) :
    t.Conveys toCanFrame := by
  change s.step toCanFrame action = some t at hStep
  cases action with
  | sender node action =>
      obtain ⟨after, hAfter, rfl⟩ := Option.map_eq_some_iff.mp hStep
      have hFrames := (h.senders node).frames_append hAfter
      refine ⟨?_, ?_, ?_, h.sourced, h.well, h.one⟩
      · intro other
        rcases eq_or_ne other node with rfl | hOther
        · simpa using (h.senders other).step hAfter
        · simpa [hOther] using h.senders other
      · intro other
        rcases eq_or_ne other node with rfl | hOther
        · rw [sentBy_put_self, put_senders]
          show s.sentBy other ++ _ = (Function.update s.senders other after other).frames
          rw [Function.update_self, hFrames, h.sentBy other]
          simp
        · rw [sentBy_put_other _ _ _ (by simpa using hOther.symm), put_senders]
          show s.sentBy other = (Function.update s.senders node after other).frames
          rw [Function.update_of_ne hOther, h.sentBy other]
      · rw [put_sent, put_dispatcher, put_transit, ← List.append_assoc]
        exact h.taken.append_right _
  | other frame =>
      cases Option.some.inj hStep
      refine ⟨h.senders, ?_, ?_, h.sourced, h.well, h.one⟩
      · intro node
        rw [sentBy_put_other _ _ _ (by simp)]
        exact h.sentBy node
      · rw [put_sent, put_dispatcher, put_transit, ← List.append_assoc]
        exact h.taken.append_right _
  | deliver places =>
      cases hTransit : s.transit with
      | nil => simp [CanBus.step, hTransit] at hStep
      | cons frame transit =>
          simp only [CanBus.step, hTransit] at hStep
          split_ifs at hStep with hDistinct
          obtain ⟨dispatcher, hArrives, rfl⟩ := Option.map_eq_some_iff.mp hStep
          rcases h.one.delivered hDistinct hArrives with rfl | hArrived
          · exact h.lost hTransit
          · exact h.dispatcher hArrived trivial hTransit
  | dispatcher action =>
      have hOwn : Dispatcher.arrived action = [] ∧
          ((Dispatcher.machine Tid Func).step s.dispatcher action).map
            (fun dispatcher => { s with dispatcher }) = some t := by
        cases action with
        | kernel action =>
            cases action with
            | arrive place frame => cases hStep
            | fail => exact ⟨rfl, hStep⟩
        | reap | register | start | stop => exact ⟨rfl, hStep⟩
      obtain ⟨hNone, hTaken⟩ := hOwn
      obtain ⟨dispatcher, hDispatcher, rfl⟩ := Option.map_eq_some_iff.mp hTaken
      exact h.dispatcher (Dispatcher.machine_step hDispatcher) hLeaves (by rw [hNone]; rfl)

end CanBus
end HyCAN
