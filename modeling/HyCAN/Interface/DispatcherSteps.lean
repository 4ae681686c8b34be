import HyCAN.Interface.Dispatcher

/-! What each step of the dispatcher can do. One relation for each source
function, with one constructor for each path through it, guards included.
Invariants are proved by cases on these relations and never unfold the steps. -/
namespace HyCAN.Dispatcher

variable {Tid Func : Type}

section Fields

variable (s : Dispatcher Tid Func) (reaper : Reaper) (pc : ReaperPc) (events : List (Observation Func))

@[simp] theorem moveReaper_threadEventFd : (s.moveReaper reaper pc).threadEventFd = s.threadEventFd := rfl
@[simp] theorem moveReaper_funcs : (s.moveReaper reaper pc).funcs = s.funcs := rfl
@[simp] theorem moveReaper_lock : (s.moveReaper reaper pc).lock = s.lock := rfl
@[simp] theorem moveReaper_counter : (s.moveReaper reaper pc).counter = s.counter := rfl
@[simp] theorem moveReaper_sockets : (s.moveReaper reaper pc).sockets = s.sockets := rfl
@[simp] theorem moveReaper_reapThread :
    (s.moveReaper reaper pc).reapThread = some { reaper with pc } := rfl
@[simp] theorem moveReaper_controller : (s.moveReaper reaper pc).controller = s.controller := rfl
@[simp] theorem moveReaper_registrars : (s.moveReaper reaper pc).registrars = s.registrars := rfl
@[simp] theorem moveReaper_log : (s.moveReaper reaper pc).log = s.log := rfl

@[simp] theorem observe_threadEventFd : (s.observe events).threadEventFd = s.threadEventFd := rfl
@[simp] theorem observe_funcs : (s.observe events).funcs = s.funcs := rfl
@[simp] theorem observe_lock : (s.observe events).lock = s.lock := rfl
@[simp] theorem observe_counter : (s.observe events).counter = s.counter := rfl
@[simp] theorem observe_sockets : (s.observe events).sockets = s.sockets := rfl
@[simp] theorem observe_reapThread : (s.observe events).reapThread = s.reapThread := rfl
@[simp] theorem observe_controller : (s.observe events).controller = s.controller := rfl
@[simp] theorem observe_registrars : (s.observe events).registrars = s.registrars := rfl
@[simp] theorem observe_log : (s.observe events).log = s.log ++ events := rfl

end Fields

/-- The paths through one iteration of `reap_process`. -/
inductive ReapStep (s : Dispatcher Tid Func) (reaper : Reaper) :
    ReapAction → Dispatcher Tid Func → Prop where
  | epollWait {events : List EpollEvent} (hPc : reaper.pc = .waiting) (hSome : events ≠ [])
      (hReady : events.Perm s.readyEvents) :
      ReapStep s reaper (.epollWait events) (s.moveReaper reaper (.scanning events))
  | interrupted (hPc : reaper.pc = .waiting) (hStop : reaper.stopRequested = false) :
      ReapStep s reaper .interrupted (s.moveReaper reaper .waiting)
  | interruptedStop (hPc : reaper.pc = .waiting) (hStop : reaper.stopRequested = true) :
      ReapStep s reaper .interrupted (s.moveReaper reaper .exited)
  | waitFailed (hPc : reaper.pc = .waiting) (hStop : reaper.stopRequested = true) :
      ReapStep s reaper .waitFailed (s.moveReaper reaper .exited)
  | batchDone (hPc : reaper.pc = .scanning []) :
      ReapStep s reaper .test (s.moveReaper reaper .waiting)
  | stopTaken {event : EpollEvent} {events : List EpollEvent}
      (hPc : reaper.pc = .scanning (event :: events)) (hFd : event.fd = s.threadEventFd)
      (hStop : reaper.stopRequested = true) :
      ReapStep s reaper .test (s.moveReaper reaper .exited)
  | stopNotTaken {event : EpollEvent} {events : List EpollEvent}
      (hPc : reaper.pc = .scanning (event :: events))
      (hTest : ¬(event.fd = s.threadEventFd ∧ reaper.stopRequested = true)) :
      ReapStep s reaper .test (s.moveReaper reaper (.reading event events))
  | notReadable {event : EpollEvent} {events : List EpollEvent}
      (hPc : reaper.pc = .reading event events) (hIn : event.epollIn = false) :
      ReapStep s reaper .read (s.moveReaper reaper (.scanning events))
  | drained {event : EpollEvent} {events : List EpollEvent}
      (hPc : reaper.pc = .reading event events) (hIn : event.epollIn = true)
      (hFd : event.fd = s.threadEventFd) (hCounter : s.counter ≠ 0) :
      ReapStep s reaper .read
        ({ s with counter := 0 }.moveReaper reaper
          (.holding s.threadEventFd (CanFrame.ofCounter s.counter) events))
  | received {event : EpollEvent} {events : List EpollEvent} {place : CanSocketPlace}
      {socket rest : CanSocket} {frame : CanFrame} (hPc : reaper.pc = .reading event events)
      (hIn : event.epollIn = true) (hFd : event.fd ≠ s.threadEventFd)
      (hPlace : s.sockets.placeOf event.fd = some place) (hSocket : s.sockets place = some socket)
      (hRead : socket.read = some (some frame, rest)) :
      ReapStep s reaper .read
        (({ s with sockets := s.sockets.set place (some rest) }.observe [.received frame]).moveReaper
          reaper (.holding event.fd frame events))
  | readFailed {event : EpollEvent} {events : List EpollEvent} {place : CanSocketPlace}
      {socket rest : CanSocket} (hPc : reaper.pc = .reading event events)
      (hIn : event.epollIn = true) (hFd : event.fd ≠ s.threadEventFd)
      (hPlace : s.sockets.placeOf event.fd = some place) (hSocket : s.sockets place = some socket)
      (hRead : socket.read = some (none, rest)) :
      ReapStep s reaper .read
        ({ s with sockets := s.sockets.set place (some rest) }.moveReaper reaper (.scanning events))
  | readClosed {event : EpollEvent} {events : List EpollEvent}
      (hPc : reaper.pc = .reading event events) (hIn : event.epollIn = true)
      (hFd : event.fd ≠ s.threadEventFd) (hClosed : s.sockets.placeOf event.fd = none) :
      ReapStep s reaper .read (s.moveReaper reaper (.scanning events))
  | fellAsleep {event : EpollEvent} {events : List EpollEvent} {place : CanSocketPlace}
      {socket : CanSocket} (hPc : reaper.pc = .reading event events)
      (hIn : event.epollIn = true) (hFd : event.fd ≠ s.threadEventFd)
      (hPlace : s.sockets.placeOf event.fd = some place) (hSocket : s.sockets place = some socket)
      (hRead : socket.read = none) :
      ReapStep s reaper .read
        ({ s with sockets := s.sockets.set place (some { socket with sleeping := true }) }.moveReaper
          reaper (.asleep event.fd events))
  | wokeReceived {fd : Fd} {events : List EpollEvent} {place : CanSocketPlace} {socket rest : CanSocket}
      {frame : CanFrame} (hPc : reaper.pc = .asleep fd events) (hSocket : s.sockets place = some socket)
      (hSleeping : socket.sleeping = true) (hTake : socket.take = some (some frame, rest)) :
      ReapStep s reaper (.wake place)
        (({ s with sockets := s.sockets.woken place rest }.observe [.received frame]).moveReaper
          reaper (.holding fd frame events))
  | wokeFailed {fd : Fd} {events : List EpollEvent} {place : CanSocketPlace} {socket rest : CanSocket}
      (hPc : reaper.pc = .asleep fd events) (hSocket : s.sockets place = some socket)
      (hSleeping : socket.sleeping = true) (hTake : socket.take = some (none, rest)) :
      ReapStep s reaper (.wake place)
        ({ s with sockets := s.sockets.woken place rest }.moveReaper reaper (.scanning events))
  | acquired {fd : Fd} {frame : CanFrame} {events : List EpollEvent}
      (hPc : reaper.pc = .holding fd frame events) (hFree : s.lock = false) :
      ReapStep s reaper .lock ({ s with lock := true }.moveReaper reaper (.locked fd frame events))
  | faulted {fd : Fd} {frame : CanFrame} {events : List EpollEvent}
      (hPc : reaper.pc = .locked fd frame events) (hEntry : s.funcs[frame.canId.toNat]? = none) :
      ReapStep s reaper .dispatch (s.moveReaper reaper (.fault events))
  | dropped {fd : Fd} {frame : CanFrame} {events : List EpollEvent}
      (hPc : reaper.pc = .locked fd frame events)
      (hEntry : s.funcs[frame.canId.toNat]? = some none) :
      ReapStep s reaper .dispatch ((s.observe [.lookedUp]).moveReaper reaper (.unlocking events))
  | called {fd : Fd} {frame : CanFrame} {events : List EpollEvent} {func : Func}
      (hPc : reaper.pc = .locked fd frame events)
      (hEntry : s.funcs[frame.canId.toNat]? = some (some func)) :
      ReapStep s reaper .dispatch
        ((s.observe [.lookedUp, .invoked func frame]).moveReaper reaper (.unlocking events))
  | released {events : List EpollEvent} (hPc : reaper.pc = .unlocking events) :
      ReapStep s reaper .unlock ({ s with lock := false }.moveReaper reaper (.scanning events))

/-- The read step, by the descriptor of the event and what is behind it. -/
theorem readStep {s t : Dispatcher Tid Func} {reaper : Reaper} {event : EpollEvent}
    {events : List EpollEvent} (hPc : reaper.pc = .reading event events)
    (hStep : s.reapProcess reaper .read = some t) : ReapStep s reaper .read t := by
  simp only [reapProcess, hPc] at hStep
  split_ifs at hStep with hIn hFd hCounter
  · cases hStep
    rw [hFd]
    exact .drained hPc hIn hFd hCounter
  · cases hPlace : s.sockets.placeOf event.fd with
    | none =>
        simp only [hPlace, Option.some.injEq] at hStep
        exact hStep ▸ .readClosed hPc hIn hFd hPlace
    | some place =>
        simp only [hPlace] at hStep
        obtain ⟨socket, hSocket, hRead⟩ := Option.map_eq_some_iff.mp hStep
        cases hResult : socket.read with
        | none =>
            simp only [hResult] at hRead
            exact hRead ▸ .fellAsleep hPc hIn hFd hPlace hSocket hResult
        | some result =>
            obtain ⟨_ | frame, rest⟩ := result
            · simp only [hResult] at hRead
              exact hRead ▸ .readFailed hPc hIn hFd hPlace hSocket hResult
            · simp only [hResult] at hRead
              exact hRead ▸ .received hPc hIn hFd hPlace hSocket hResult
  · cases hStep
    exact .notReadable hPc (by simpa using hIn)

theorem wakeStep {s t : Dispatcher Tid Func} {reaper : Reaper} {fd : Fd} {events : List EpollEvent}
    {place : CanSocketPlace} (hPc : reaper.pc = .asleep fd events)
    (hStep : s.reapProcess reaper (.wake place) = some t) : ReapStep s reaper (.wake place) t := by
  simp only [reapProcess, hPc] at hStep
  cases hSocket : s.sockets place with
  | none => simp [hSocket] at hStep
  | some socket =>
      simp only [hSocket] at hStep
      split_ifs at hStep with hSleeping
      obtain ⟨⟨_ | frame, rest⟩, hTake, hWoken⟩ := Option.map_eq_some_iff.mp hStep
      · exact hWoken ▸ .wokeFailed hPc hSocket hSleeping hTake
      · exact hWoken ▸ .wokeReceived hPc hSocket hSleeping hTake

theorem reapStep {s t : Dispatcher Tid Func} {reaper : Reaper} {action : ReapAction}
    (hStep : s.reapProcess reaper action = some t) : ReapStep s reaper action t := by
  cases hPc : reaper.pc with
  | waiting =>
      cases action <;> simp only [reapProcess, hPc, reduceCtorEq] at hStep
      case epollWait events =>
        split_ifs at hStep with hGuard
        cases hStep
        exact .epollWait hPc hGuard.1 hGuard.2
      case interrupted =>
        cases hStep
        cases hStop : reaper.stopRequested with
        | false => simpa [hStop] using ReapStep.interrupted hPc hStop
        | true => simpa [hStop] using ReapStep.interruptedStop hPc hStop
      case waitFailed =>
        split_ifs at hStep with hStop
        cases hStep
        exact .waitFailed hPc hStop
  | scanning events =>
      cases events with
      | nil =>
          cases action <;> simp only [reapProcess, hPc, reduceCtorEq] at hStep
          cases hStep
          exact .batchDone hPc
      | cons event events =>
          cases action <;> simp only [reapProcess, hPc, reduceCtorEq] at hStep
          split_ifs at hStep with hTest
          · cases hStep
            exact .stopTaken hPc hTest.1 hTest.2
          · cases hStep
            exact .stopNotTaken hPc hTest
  | reading event events =>
      cases action with
      | read => exact readStep hPc hStep
      | _ => simp [reapProcess, hPc] at hStep
  | asleep fd events =>
      cases action with
      | wake place => exact wakeStep hPc hStep
      | _ => simp [reapProcess, hPc] at hStep
  | holding fd frame events =>
      cases action <;> simp only [reapProcess, hPc, reduceCtorEq] at hStep
      cases hFree : s.lock with
      | true => simp [hFree] at hStep
      | false =>
          simp only [hFree, Bool.false_eq_true, ↓reduceIte, Option.some.injEq] at hStep
          exact hStep ▸ .acquired hPc hFree
  | locked fd frame events =>
      cases action <;> simp only [reapProcess, hPc, reduceCtorEq] at hStep
      cases hEntry : s.funcs[frame.canId.toNat]? with
      | none =>
          simp only [hEntry, Option.some.injEq] at hStep
          exact hStep ▸ .faulted hPc hEntry
      | some entry =>
          cases entry with
          | none =>
              simp only [hEntry, Option.some.injEq] at hStep
              exact hStep ▸ .dropped hPc hEntry
          | some func =>
              simp only [hEntry, Option.some.injEq] at hStep
              exact hStep ▸ .called hPc hEntry
  | unlocking events =>
      cases action <;> simp only [reapProcess, hPc, reduceCtorEq] at hStep
      cases hStep
      exact .released hPc
  | fault events => cases action <;> simp [reapProcess, hPc] at hStep
  | exited => cases action <;> simp [reapProcess, hPc] at hStep

/-- The paths through `register_func`; the two early exits keep `lock_`. -/
inductive RegisterStep [DecidableEq Tid] (s : Dispatcher Tid Func) (tid : Tid) :
    RegisterAction Func → Dispatcher Tid Func → Prop where
  | called {ids : List Nat} {func : Func} (hPc : s.registrars tid = .idle) :
      RegisterStep s tid (.call ids func)
        { s with registrars := Function.update s.registrars tid (.locking ids func) }
  | acquired {ids : List Nat} {func : Func} (hPc : s.registrars tid = .locking ids func)
      (hFree : s.lock = false) :
      RegisterStep s tid .lock { s with
        lock := true, registrars := Function.update s.registrars tid (.looping ids func) }
  | stored {id : Nat} {ids : List Nat} {func : Func}
      (hPc : s.registrars tid = .looping (id :: ids) func) (hId : id < maxStdCanId) :
      RegisterStep s tid (.next true)
        ({ s with
          funcs := s.funcs.setIfInBounds id (some func)
          registrars := Function.update s.registrars tid (.looping ids func) }.observe
            [.registered id func])
  | left {id : Nat} {ids : List Nat} {func : Func} {copied : Bool}
      (hPc : s.registrars tid = .looping (id :: ids) func)
      (hExit : maxStdCanId ≤ id ∨ copied = false) :
      RegisterStep s tid (.next copied)
        { s with registrars := Function.update s.registrars tid .idle }
  | released {func : Func} (hPc : s.registrars tid = .looping [] func) :
      RegisterStep s tid .unlock
        { s with lock := false, registrars := Function.update s.registrars tid .idle }

theorem registerStep [DecidableEq Tid] {s t : Dispatcher Tid Func} {tid : Tid}
    {action : RegisterAction Func} (hStep : s.registerFunc tid action = some t) :
    RegisterStep s tid action t := by
  cases hPc : s.registrars tid with
  | idle =>
      cases action <;> simp only [registerFunc, hPc, reduceCtorEq] at hStep
      cases hStep
      exact .called hPc
  | locking ids func =>
      cases action <;> simp only [registerFunc, hPc, reduceCtorEq] at hStep
      cases hFree : s.lock with
      | true => simp [hFree] at hStep
      | false =>
          simp only [hFree, Bool.false_eq_true, ↓reduceIte, Option.some.injEq] at hStep
          exact hStep ▸ .acquired hPc hFree
  | looping ids func =>
      cases ids with
      | nil =>
          cases action <;> simp only [registerFunc, hPc, reduceCtorEq] at hStep
          cases hStep
          exact .released hPc
      | cons id ids =>
          cases action <;> simp only [registerFunc, hPc, reduceCtorEq] at hStep
          case next copied =>
            split_ifs at hStep with hExit
            · cases hStep
              exact .left hPc hExit
            · cases hStep
              obtain ⟨hId, hCopied⟩ : id < maxStdCanId ∧ copied = true := by simpa using hExit
              exact hCopied ▸ .stored hPc hId

/-- The paths through `start`. -/
inductive StartStep (s : Dispatcher Tid Func) : StartAction → Dispatcher Tid Func → Prop where
  | called (hPc : s.controller = .idle) :
      StartStep s .call { s with sockets := s.sockets.release, controller := .connecting }
  | opened {fd : Fd} (hPc : s.controller = .connecting) (hFd : fd ≠ s.threadEventFd)
      (hLeftover : (s.sockets .leftover).any (·.fd = fd) = false) :
      StartStep s (.socket fd)
        { s with sockets := s.sockets.set .current (some (.opened fd)), controller := .binding }
  | openFailed (hPc : s.controller = .connecting) :
      StartStep s .socketFail { s with controller := .idle }
  | bound (hPc : s.controller = .binding) :
      StartStep s .bind { s with
        sockets := s.sockets.modify fun socket => { socket with bound := true }
        controller := .unblocking }
  | bindFailed (hPc : s.controller = .binding) :
      StartStep s .bindFail { s with sockets := s.sockets.close, controller := .idle }
  | unblocked (hPc : s.controller = .unblocking) :
      StartStep s .setNonblocking { s with
        sockets := s.sockets.modify fun socket => { socket with nonblocking := true }
        controller := .adding }
  | added (hPc : s.controller = .adding) :
      StartStep s .epollAdd { s with
        sockets := s.sockets.modify fun socket => { socket with polled := true }
        controller := .flushing }
  | addFailed (hPc : s.controller = .adding) :
      StartStep s .epollAddFail { s with controller := .idle }
  | flushed {socket rest : CanSocket} {frame : CanFrame} (hPc : s.controller = .flushing)
      (hSocket : s.sockets .current = some socket) (hRead : socket.read = some (some frame, rest)) :
      StartStep s .flush { s with sockets := s.sockets.set .current (some rest) }
  | flushDone {socket rest : CanSocket} (hPc : s.controller = .flushing)
      (hSocket : s.sockets .current = some socket) (hRead : socket.read = some (none, rest)) :
      StartStep s .flush
        { s with sockets := s.sockets.set .current (some rest), controller := .spawning }
  | flushFailed (hPc : s.controller = .flushing) :
      StartStep s .flushFail { s with
        sockets := s.sockets.modify fun socket => { socket with error := false }
        controller := .idle }
  | alreadyRunning {reaper : Reaper} (hPc : s.controller = .spawning)
      (hReaper : s.reapThread = some reaper) :
      StartStep s .spawn { s with controller := .idle }
  | spawned (hPc : s.controller = .spawning) (hReaper : s.reapThread = none) :
      StartStep s .spawn { s with reapThread := some ⟨false, .waiting⟩, controller := .idle }

theorem startStep {s t : Dispatcher Tid Func} {action : StartAction}
    (hStep : s.start action = some t) : StartStep s action t := by
  cases hPc : s.controller <;> cases action <;> simp only [start, hPc, reduceCtorEq] at hStep
  case idle.call => exact Option.some.inj hStep ▸ .called hPc
  case connecting.socket fd =>
    split_ifs at hStep with hNumber
    obtain ⟨hFd, hLeftover⟩ := not_or.mp hNumber
    exact Option.some.inj hStep ▸ .opened hPc hFd (by simpa using hLeftover)
  case connecting.socketFail => exact Option.some.inj hStep ▸ .openFailed hPc
  case binding.bind => exact Option.some.inj hStep ▸ .bound hPc
  case binding.bindFail => exact Option.some.inj hStep ▸ .bindFailed hPc
  case unblocking.setNonblocking => exact Option.some.inj hStep ▸ .unblocked hPc
  case adding.epollAdd => exact Option.some.inj hStep ▸ .added hPc
  case adding.epollAddFail => exact Option.some.inj hStep ▸ .addFailed hPc
  case flushing.flush =>
    cases hSocket : s.sockets .current with
    | none => simp [hSocket] at hStep
    | some socket =>
        rcases hRead : socket.read with _ | ⟨_ | frame, rest⟩
        · simp [hSocket, hRead] at hStep
        · simp only [hSocket, hRead, Option.some.injEq] at hStep
          exact hStep ▸ .flushDone hPc hSocket hRead
        · simp only [hSocket, hRead, Option.some.injEq] at hStep
          rw [← hPc] at hStep
          exact hStep ▸ .flushed hPc hSocket hRead
  case flushing.flushFail => exact Option.some.inj hStep ▸ .flushFailed hPc
  case spawning.spawn =>
    cases hReaper : s.reapThread with
    | none =>
        simp only [hReaper, Option.some.injEq] at hStep
        exact hStep ▸ .spawned hPc hReaper
    | some reaper =>
        simp only [hReaper, Option.some.injEq] at hStep
        rw [← hReaper] at hStep
        exact hStep ▸ .alreadyRunning hPc hReaper

/-- The paths through `stop`. -/
inductive StopStep (s : Dispatcher Tid Func) : StopAction → Dispatcher Tid Func → Prop where
  | notRunning (hPc : s.controller = .idle) (hReaper : s.reapThread = none) :
      StopStep s .call s
  | requested {reaper : Reaper} (hPc : s.controller = .idle) (hReaper : s.reapThread = some reaper) :
      StopStep s .call { s with
        reapThread := some { reaper with stopRequested := true }, controller := .writing }
  | written (hPc : s.controller = .writing) (hRoom : s.counter + 1 < 2 ^ 64 - 1) :
      StopStep s .write { s with counter := s.counter + 1, controller := .joining }
  | writeFailed (hPc : s.controller = .writing) :
      StopStep s .writeFail { s with controller := .idle }
  | joined {reaper : Reaper} (hPc : s.controller = .joining) (hReaper : s.reapThread = some reaper)
      (hExited : reaper.pc = .exited) :
      StopStep s .join { s with reapThread := none, controller := .idle }

theorem stopStep {s t : Dispatcher Tid Func} {action : StopAction}
    (hStep : s.stop action = some t) : StopStep s action t := by
  cases hPc : s.controller <;> cases action <;> simp only [stop, hPc, reduceCtorEq] at hStep
  case idle.call =>
    cases hReaper : s.reapThread with
    | none =>
        simp only [hReaper, Option.some.injEq] at hStep
        exact hStep ▸ .notRunning hPc hReaper
    | some reaper =>
        simp only [hReaper, Option.some.injEq] at hStep
        exact hStep ▸ .requested hPc hReaper
  case writing.write =>
    split_ifs at hStep with hRoom
    exact Option.some.inj hStep ▸ .written hPc hRoom
  case writing.writeFail => exact Option.some.inj hStep ▸ .writeFailed hPc
  case joining.join =>
    rcases hReaper : s.reapThread with _ | ⟨stop, pc⟩
    · simp [hReaper] at hStep
    · cases pc <;> simp only [hReaper, reduceCtorEq, Option.some.injEq] at hStep
      exact hStep ▸ .joined hPc hReaper rfl

inductive KernelStep (s : Dispatcher Tid Func) : KernelAction → Dispatcher Tid Func → Prop where
  | arrived {place : CanSocketPlace} {socket : CanSocket} {frame : CanFrame}
      (hSocket : s.sockets place = some socket) (hBound : socket.bound = true) :
      KernelStep s (.arrive place frame) { s with
        sockets := s.sockets.set place (some { socket with queue := socket.queue ++ [frame] }) }
  | failed {place : CanSocketPlace} {socket : CanSocket} (hSocket : s.sockets place = some socket)
      (hBound : socket.bound = true) :
      KernelStep s (.fail place)
        { s with sockets := s.sockets.set place (some { socket with error := true }) }

theorem kernelStep {s t : Dispatcher Tid Func} {action : KernelAction}
    (hStep : s.kernel action = some t) : KernelStep s action t := by
  cases action with
  | arrive place frame | fail place =>
      cases hSocket : s.sockets place with
      | none => simp [kernel, hSocket] at hStep
      | some socket =>
          simp only [kernel, hSocket] at hStep
          split_ifs at hStep with hBound
          cases hStep
          constructor <;> assumption

/-- A step of the whole machine belongs to one thread, or to the kernel. -/
inductive Step [DecidableEq Tid] (s : Dispatcher Tid Func) :
    Action Tid Func → Dispatcher Tid Func → Prop where
  | reap {reaper : Reaper} {action : ReapAction} {t : Dispatcher Tid Func}
      (hReaper : s.reapThread = some reaper) (hStep : ReapStep s reaper action t) :
      Step s (.reap action) t
  | register {tid : Tid} {action : RegisterAction Func} {t : Dispatcher Tid Func}
      (hStep : RegisterStep s tid action t) : Step s (.register tid action) t
  | start {action : StartAction} {t : Dispatcher Tid Func} (hStep : StartStep s action t) :
      Step s (.start action) t
  | stop {action : StopAction} {t : Dispatcher Tid Func} (hStep : StopStep s action t) :
      Step s (.stop action) t
  | kernel {action : KernelAction} {t : Dispatcher Tid Func} (hStep : KernelStep s action t) :
      Step s (.kernel action) t

theorem machine_step [DecidableEq Tid] {s t : Dispatcher Tid Func} {action : Action Tid Func}
    (hStep : (machine Tid Func).step s action = some t) : Step s action t := by
  cases action with
  | reap action =>
      obtain ⟨reaper, hReaper, hReap⟩ := Option.bind_eq_some_iff.mp hStep
      exact .reap hReaper (reapStep hReap)
  | register tid action => exact .register (registerStep hStep)
  | start action => exact .start (startStep hStep)
  | stop action => exact .stop (stopStep hStep)
  | kernel action => exact .kernel (kernelStep hStep)

end HyCAN.Dispatcher
