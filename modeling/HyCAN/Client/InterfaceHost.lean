import HyCAN.Client.ApiCall
import HyCAN.Interface.LifecycleSuccess

/-! One interface of a process and the daemon of its host, together. `up` and `down` get their
answers from the daemon, which handles the requests of other clients at any time between
their calls, and the socket of the dispatcher is bound to a link of the same kernel. Nobody
else changes the links of the host. A request that a call has given up and that the daemon
handles later counts among those of other clients. -/
namespace HyCAN

open NetlinkManager Transition

/-- A request that no call waits for, as the daemon handles it. -/
structure ServedRequest where
  request : NetlinkRequest
  after : List UInt8
  faults : RequestFaults

def serve (texts : ErrorTexts) (manager : NetlinkManager) (served : ServedRequest) : NetlinkManager :=
  (manager.processRequest texts served.request served.after served.faults).2

/-- Each call of the client, after the requests that come before it. -/
def hosting (texts : ErrorTexts) :
    Handler ClientCall.Answer NetlinkManager (List ServedRequest × CallFaults)
  | call, (others, faults), manager =>
    let done := observing texts call faults ⟨others.foldl (serve texts) manager, []⟩
    (done.1, done.2.manager)

structure InterfaceHost where
  lifecycle : InterfaceLifecycle
  manager : NetlinkManager

namespace InterfaceHost

/-- What happens before and in each call of the client. -/
abbrev Calls := Nat → List ServedRequest × CallFaults

inductive Action where
  | up (bitrate : UInt32) (calls : Calls) (faults : StartFaults)
  | down (calls : Calls) (writeFault : Option (List UInt8))
  | serve (served : ServedRequest)
  /-- The reaper finds its stop request. -/
  | exit
  | openForeign (fd : Nat)
  | closeForeign (fd : Nat)

variable (texts : ErrorTexts) (type : InterfaceType) (interfaceName : List UInt8)

/-- A socket gets past the look-up of its link only if there is one. -/
def linkFound (kernel : LinkTable) : ConnectOutcome → Bool
  | .socketFails _ | .indexFails .. => true
  | .bindFails .. | .connected _ => (kernel.byName (Interface.ifrName interfaceName)).isSome

/-- `Interface::up` -/
def up (s : InterfaceHost) (bitrate : UInt32) (calls : Calls) (faults : StartFaults) : Option InterfaceHost :=
  let linked := (Interface.linkUp type interfaceName bitrate).run (hosting texts) calls s.manager
  match linked.1 with
  | .error error => some ⟨InterfaceLifecycle.returns .up (.error error, s.lifecycle), linked.2⟩
  | .ok () =>
    if linkFound interfaceName linked.2.kernel faults.connect then
      (s.lifecycle.start interfaceName faults).map fun started =>
        ⟨InterfaceLifecycle.returns .up started, linked.2⟩
    else none

/-- `Interface::down` -/
def down (s : InterfaceHost) (calls : Calls) (writeFault : Option (List UInt8)) : InterfaceHost :=
  let told := (Interface.down interfaceName).run (hosting texts) calls s.manager
  match told.1 with
  | .error error => ⟨InterfaceLifecycle.returns .down (.error error, s.lifecycle), told.2⟩
  | .ok () => ⟨InterfaceLifecycle.returns .down (s.lifecycle.stop writeFault), told.2⟩

/-- A step of the process alone. -/
def inProcess (s : InterfaceHost) (action : InterfaceLifecycle.Action) : Option InterfaceHost :=
  (s.lifecycle.step type interfaceName action).map fun lifecycle => { s with lifecycle }

def step (s : InterfaceHost) : Action → Option InterfaceHost
  | .up bitrate calls faults => s.up texts type interfaceName bitrate calls faults
  | .down calls writeFault => some (s.down texts interfaceName calls writeFault)
  | .serve served => some { s with manager := HyCAN.serve texts s.manager served }
  | .exit => s.inProcess type interfaceName .exit
  | .openForeign fd => s.inProcess type interfaceName (.openForeign fd)
  | .closeForeign fd => s.inProcess type interfaceName (.closeForeign fd)

def machine : Machine InterfaceHost Action := ⟨step texts type interfaceName⟩

/-- A new interface in a process, on a host with any links. -/
def init (application : Nat → Bool) (threadEventFd : Nat) (manager : NetlinkManager) : InterfaceHost :=
  ⟨.init interfaceName application threadEventFd, manager⟩

section Answers

variable {Result : Type}

end Answers

section Links

variable {texts} {text : List UInt8} {up : Bool} {bitrate : UInt32} {calls : Calls}
  {manager after : NetlinkManager}

/-- The link that the interface stands for is in the state. -/
def LinkIs (interfaceName : List UInt8) (kernel : LinkTable) (up : Bool) : Prop :=
  ∃ link, kernel.byName (Interface.ifrName interfaceName) = some link ∧ link.up = up

/-- Requests that do not name the link leave it as it is. -/
theorem LinkIs.serve {served : ServedRequest} (h : LinkIs text manager.kernel up)
    (hOther : served.request.name served.after ≠ Interface.ifrName text) :
    LinkIs text (serve texts manager served).kernel up := by
  obtain ⟨link, hLink, hUp⟩ := h
  obtain ⟨hMem, hName⟩ := LinkTable.byName_eq_some_iff.mp hLink
  refine ⟨link, ?_, hUp⟩
  apply LinkTable.byName_eq_some_iff.mpr
  refine ⟨?_, hName⟩
  by_contra hGone
  have hChanged : ¬(link ∈ (HyCAN.serve texts manager served).kernel.links ↔ link ∈ manager.kernel.links) := by
    simp [hGone, hMem]
  rcases processRequest_changes texts manager served.request served.after served.faults hChanged with
    ⟨_, hSame, _⟩ | ⟨_, hNone⟩
  · exact hOther (hSame.symm.trans hName)
  · rw [hName, hLink] at hNone
    cases hNone

end Links

section Runs

variable {texts type interfaceName} {s t u : InterfaceHost}

/-- The link is up in the kernel, and the reaper runs and reads from one open CAN socket that
is bound to that link. -/
structure Working (interfaceName : List UInt8) (s : InterfaceHost) : Prop where
  link : LinkIs interfaceName s.manager.kernel true
  reading : s.lifecycle.UpAndReading interfaceName

/-- The link is down in the kernel, and there is no reaper. -/
structure Resting (interfaceName : List UInt8) (s : InterfaceHost) : Prop where
  link : LinkIs interfaceName s.manager.kernel false
  stopped : s.lifecycle.reapThread = none

/-- Neither a call of the interface nor a request that names its link. -/
def Outside (interfaceName : List UInt8) : Action → Prop
  | .up .. | .down .. => False
  | .serve served => served.request.name served.after ≠ Interface.ifrName interfaceName
  | .exit | .openForeign _ | .closeForeign _ => True

/-- A step of the process alone changes no descriptor that was issued to a socket, and it
lets only a reaper exit that is told to stop. -/
theorem inProcess_cases {action : InterfaceLifecycle.Action} {lifecycle after : InterfaceLifecycle}
    (hStep : lifecycle.step type interfaceName action = some after)
    (hCall : action = .exit ∨ (∃ fd, action = .openForeign fd) ∨ ∃ fd, action = .closeForeign fd) :
    after.epoll = lifecycle.epoll ∧ after.bound = lifecycle.bound ∧
      after.threadEventFd = lifecycle.threadEventFd ∧
      (∀ fd serial, lifecycle.sockets.ledger.openings fd = some (.issued serial) →
        after.sockets.ledger.openings fd = some (.issued serial)) ∧
      (after.reapThread = lifecycle.reapThread ∨
        ∃ reaper, lifecycle.reapThread = some reaper ∧ reaper.stopRequested = true) := by
  rcases hCall with rfl | ⟨fd, rfl⟩ | ⟨fd, rfl⟩
  · simp only [InterfaceLifecycle.step, InterfaceLifecycle.exit] at hStep
    cases hReaper : lifecycle.reapThread with
    | none => simp [hReaper] at hStep
    | some reaper =>
        simp only [hReaper] at hStep
        split_ifs at hStep with hStop
        cases hStep
        exact ⟨rfl, rfl, rfl, fun _ _ hIssued => hIssued, .inr ⟨reaper, rfl, hStop⟩⟩
  · obtain ⟨sockets, hSockets, rfl⟩ := Option.map_eq_some_iff.mp hStep
    cases SocketObjects.step_cases hSockets with
    | opened hFree =>
        exact ⟨rfl, rfl, rfl, fun _ _ hIssued => (Ownership.Ledger.issued_openForeign hFree).mpr hIssued, .inl rfl⟩
  · simp only [InterfaceLifecycle.step] at hStep
    split_ifs at hStep
    obtain ⟨sockets, hSockets, rfl⟩ := Option.map_eq_some_iff.mp hStep
    cases SocketObjects.step_cases hSockets with
    | closed hForeign =>
        exact ⟨rfl, rfl, rfl, fun _ _ hIssued => (Ownership.Ledger.issued_closeForeign hForeign).mpr hIssued,
          .inl rfl⟩

theorem Working.inProcess {action : InterfaceLifecycle.Action} (h : s.Working interfaceName)
    (hStep : s.inProcess type interfaceName action = some t)
    (hCall : action = .exit ∨ (∃ fd, action = .openForeign fd) ∨ ∃ fd, action = .closeForeign fd) :
    t.Working interfaceName := by
  obtain ⟨lifecycle, hLifecycle, rfl⟩ := Option.map_eq_some_iff.mp hStep
  obtain ⟨hEpoll, hBound, hEvent, hIssued, hReaper⟩ := inProcess_cases hLifecycle hCall
  obtain ⟨reaper, hSome, hStop, hExited⟩ := h.reading.reaper
  obtain ⟨fd, serial, hOpening, hLink, hWatched⟩ := h.reading.epoll
  have hSame : lifecycle.reapThread = s.lifecycle.reapThread := by
    refine hReaper.resolve_right ?_
    rintro ⟨other, hOther, hStopped⟩
    rw [hSome] at hOther
    cases hOther
    rw [hStop] at hStopped
    cases hStopped
  refine ⟨h.link, ⟨reaper, hSame.trans hSome, hStop, hExited⟩, fd, serial, hIssued fd serial hOpening, ?_, ?_⟩
  · rw [hBound]
    exact hLink
  · intro number
    rw [hEpoll, hEvent]
    exact hWatched number

theorem Resting.inProcess {action : InterfaceLifecycle.Action} (h : s.Resting interfaceName)
    (hStep : s.inProcess type interfaceName action = some t)
    (hCall : action = .exit ∨ (∃ fd, action = .openForeign fd) ∨ ∃ fd, action = .closeForeign fd) :
    t.Resting interfaceName := by
  obtain ⟨lifecycle, hLifecycle, rfl⟩ := Option.map_eq_some_iff.mp hStep
  obtain ⟨_, _, _, _, hReaper⟩ := inProcess_cases hLifecycle hCall
  refine ⟨h.link, ?_⟩
  rcases hReaper with hSame | ⟨reaper, hSome, _⟩
  · exact hSame.trans h.stopped
  · rw [h.stopped] at hSome
    cases hSome

theorem Working.step {action : Action} (h : s.Working interfaceName) (hOutside : Outside interfaceName action)
    (hStep : (machine texts type interfaceName).step s action = some t) : t.Working interfaceName := by
  change s.step texts type interfaceName action = some t at hStep
  cases action with
  | up | down => exact hOutside.elim
  | serve served =>
      cases Option.some.inj hStep
      exact ⟨h.link.serve hOutside, h.reading⟩
  | exit => exact h.inProcess hStep (.inl rfl)
  | openForeign fd => exact h.inProcess hStep (.inr (.inl ⟨fd, rfl⟩))
  | closeForeign fd => exact h.inProcess hStep (.inr (.inr ⟨fd, rfl⟩))

theorem Resting.step {action : Action} (h : s.Resting interfaceName) (hOutside : Outside interfaceName action)
    (hStep : (machine texts type interfaceName).step s action = some t) : t.Resting interfaceName := by
  change s.step texts type interfaceName action = some t at hStep
  cases action with
  | up | down => exact hOutside.elim
  | serve served =>
      cases Option.some.inj hStep
      exact ⟨h.link.serve hOutside, h.stopped⟩
  | exit => exact h.inProcess hStep (.inl rfl)
  | openForeign fd => exact h.inProcess hStep (.inr (.inl ⟨fd, rfl⟩))
  | closeForeign fd => exact h.inProcess hStep (.inr (.inr ⟨fd, rfl⟩))

end Runs

end InterfaceHost
end HyCAN
