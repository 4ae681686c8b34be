import HyCAN.Interface.Lifecycle
import HyCAN.Interface.SocketOwnership

/-! What holds between the socket, the epoll set and the thread object in every
reachable state. -/
namespace HyCAN.InterfaceLifecycle

open Ownership Transition

section Closed

variable {s t : SocketObjects} {o : Nat} {object : SocketObject}

/-- What `ensure_connected` closes before it asks for a new descriptor. -/
def released (object : SocketObject) : List Nat :=
  if 0 < object.socket.sockFd then [object.socket.sockFd.toNat] else []

theorem mem_released {object : SocketObject} {fd : Nat} :
    fd ∈ released object ↔ 0 < fd ∧ object.socket.sockFd = fd := by
  unfold released
  split_ifs with hPos
  · rw [List.mem_singleton]
    omega
  · simp only [List.not_mem_nil, false_iff]
    omega

theorem closedSince_of_append {closes : List SocketClose} (hCloses : t.closes = s.closes ++ closes) :
    closedSince s t = closes.map SocketClose.fd := by
  rw [closedSince, hCloses, List.drop_left]

theorem disconnect_spec (s : SocketObjects) (o : Nat) (object : SocketObject) :
    ∃ closes, (s.disconnect o object).closes = s.closes ++ closes ∧
      closes.map SocketClose.fd = released object ∧
      ∀ fd, (s.disconnect o object).ledger.openings fd =
        if fd ∈ released object then none else s.ledger.openings fd := by
  unfold SocketObjects.disconnect released
  split_ifs with hPos
  · cases hFd : object.socket.sockFd with
    | negSucc n => simp [hFd] at hPos
    | ofNat n =>
        refine ⟨[⟨o, n, s.ledger.owns o n⟩], rfl, rfl, fun fd => ?_⟩
        simp [SocketObjects.giveUp, SocketObjects.closeFd, Ledger.forget, Ledger.close,
          Function.update_apply]
  · exact ⟨[], by simp, rfl, by simp⟩

theorem openings_obtain (s : SocketObjects) (o : Nat) (object : SocketObject) (fd number : Nat) :
    (s.obtain o object fd).ledger.openings number =
      if number = fd then some (.issued s.ledger.nextSerial) else s.ledger.openings number := by
  simp [SocketObjects.obtain, SocketObjects.setFd, Ledger.issue, Ledger.forget, Function.update_apply]

theorem openings_giveUp (s : SocketObjects) (o : Nat) (object : SocketObject) (fd number : Nat) :
    (s.giveUp o object fd).ledger.openings number =
      if number = fd then none else s.ledger.openings number := by
  simp [SocketObjects.giveUp, SocketObjects.setFd, SocketObjects.closeFd, Ledger.close, Ledger.forget,
    Function.update_apply]

/-- `ensure_connected` closes the positive `sock_fd`, and a new descriptor that it cannot
use. -/
theorem closedSince_cases {outcome : ConnectOutcome} {result : Except Error Unit}
    (h : s.ensureConnected o object outcome = some (result, t)) :
    let u := s.disconnect o object
    t = u.setFd o object (-1) ∧ closedSince s t = released object ∨
      ∃ fresh : Nat, u.ledger.openings fresh = none ∧
        (t = (u.obtain o object fresh).giveUp o object fresh ∧
            closedSince s t = released object ++ [fresh] ∨
          t = u.obtain o object fresh ∧ closedSince s t = released object) := by
  intro u
  obtain ⟨closes, hCloses, hReleased, _⟩ := disconnect_spec s o object
  rcases SocketObjects.ensureConnected_cases h with rfl | ⟨fresh, hFree, rfl | rfl⟩
  · have hClosed := closedSince_of_append (t := u.setFd o object (-1)) hCloses
    exact .inl ⟨rfl, hClosed.trans hReleased⟩
  · have hBoth : ((u.obtain o object fresh).giveUp o object fresh).closes =
        s.closes ++ (closes ++ [⟨o, fresh, (u.obtain o object fresh).ledger.owns o fresh⟩]) := by
      rw [← List.append_assoc, ← hCloses]
      rfl
    have hClosed := closedSince_of_append hBoth
    rw [List.map_append, hReleased] at hClosed
    exact .inr ⟨fresh, hFree, .inl ⟨rfl, hClosed⟩⟩
  · have hClosed := closedSince_of_append (t := u.obtain o object fresh) hCloses
    exact .inr ⟨fresh, hFree, .inr ⟨rfl, hClosed.trans hReleased⟩⟩

theorem released_subset_closedSince {outcome : ConnectOutcome} {result : Except Error Unit}
    (h : s.ensureConnected o object outcome = some (result, t)) :
    released object ⊆ closedSince s t := by
  rcases closedSince_cases h with ⟨_, hClosed⟩ | ⟨fresh, _, ⟨_, hClosed⟩ | ⟨_, hClosed⟩⟩
  · rw [hClosed]
    exact List.Subset.refl _
  · rw [hClosed]
    exact List.subset_append_left _ _
  · rw [hClosed]
    exact List.Subset.refl _

/-- What `ensure_connected` closes, and what it leaves open. -/
theorem ensureConnected_spec {outcome : ConnectOutcome} {result : Except Error Unit}
    (h : s.ensureConnected o object outcome = some (result, t)) (fd : Nat) :
    (fd ∈ closedSince s t → fd ∈ released object ∨ s.ledger.openings fd = none) ∧
      (fd ∉ closedSince s t → s.ledger.openings fd ≠ none →
        t.ledger.openings fd = s.ledger.openings fd) := by
  obtain ⟨_, _, _, hOpenings⟩ := disconnect_spec s o object
  have hKept : fd ∉ released object →
      (s.disconnect o object).ledger.openings fd = s.ledger.openings fd := by
    intro hNot
    rw [hOpenings, if_neg hNot]
  rcases closedSince_cases h with ⟨hSame, hClosed⟩ | ⟨fresh, hFree, ⟨hSame, hClosed⟩ | ⟨hSame, hClosed⟩⟩
  · rw [hClosed, hSame]
    exact ⟨.inl, fun hNot _ => hKept hNot⟩
  · rw [hClosed, List.mem_append, List.mem_singleton]
    constructor
    · rintro (hMem | rfl)
      · exact .inl hMem
      · by_cases hMem : fd ∈ released object
        · exact .inl hMem
        · exact .inr ((hKept hMem).symm.trans hFree)
    · intro hNot _
      rw [not_or] at hNot
      rw [hSame, openings_giveUp, if_neg hNot.2, openings_obtain, if_neg hNot.2, hKept hNot.1]
  · rw [hClosed, hSame]
    refine ⟨.inl, fun hNot hOpen => ?_⟩
    have hNe : fd ≠ fresh := by
      rintro rfl
      exact hOpen ((hKept hNot).symm.trans hFree)
    rw [openings_obtain, if_neg hNe, hKept hNot]

/-- A successful `ensure_connected` closes nothing but the positive `sock_fd`. -/
theorem ensureConnected_ok {outcome : ConnectOutcome}
    (h : s.ensureConnected o object outcome = some (.ok (), t)) :
    ∃ fd, outcome = .connected fd ∧ closedSince s t = released object ∧
      (s.disconnect o object).ledger.openings fd = none ∧
      t = (s.disconnect o object).obtain o object fd := by
  obtain ⟨closes, hCloses, hReleased, _⟩ := disconnect_spec s o object
  unfold SocketObjects.ensureConnected at h
  cases outcome with
  | socketFails errno => simp [ConnectOutcome.result] at h
  | indexFails fd errno | bindFails fd errno =>
      simp only at h
      split_ifs at h
      simp [ConnectOutcome.result] at h
  | connected fd =>
      simp only at h
      split_ifs at h with hFree
      have hSame := (Prod.mk.inj (Option.some.inj h)).2.symm
      refine ⟨fd, rfl, ?_, hFree, hSame⟩
      rw [hSame, ← hReleased]
      exact closedSince_of_append hCloses

end Closed

section Spawn

variable (s : InterfaceLifecycle)

@[simp] theorem spawn_sockets : s.spawn.sockets = s.sockets := by
  unfold spawn
  split <;> rfl

@[simp] theorem spawn_threadEventFd : s.spawn.threadEventFd = s.threadEventFd := by
  unfold spawn
  split <;> rfl

@[simp] theorem spawn_epoll : s.spawn.epoll = s.epoll := by
  unfold spawn
  split <;> rfl

@[simp] theorem spawn_bound : s.spawn.bound = s.bound := by
  unfold spawn
  split <;> rfl

theorem spawn_reapThread : s.spawn.reapThread = some (s.reapThread.getD ⟨false, false⟩) := by
  unfold spawn
  split
  · next reaper hReaper => simp [hReaper]
  · next hReaper => simp [hReaper]

end Spawn

variable {type : InterfaceType} {interfaceName : List UInt8}

/-- The ways through `Dispatcher::start`. -/
inductive StartStep (interfaceName : List UInt8) (s : InterfaceLifecycle) (faults : StartFaults) :
    Except Error Unit → InterfaceLifecycle → Prop where
  | connectFails {object : SocketObject} {u : InterfaceLifecycle} {error : Error}
      (hObject : s.sockets.objects 0 = some object)
      (hConnect : s.connect interfaceName object faults.connect = some (.error error, u)) :
      StartStep interfaceName s faults (.error error) u
  | addFails {object : SocketObject} {u : InterfaceLifecycle} {errno : List UInt8} (error : Error)
      (hObject : s.sockets.objects 0 = some object)
      (hConnect : s.connect interfaceName object faults.connect = some (.ok (), u))
      (hAdd : faults.epollAdd = some errno) : StartStep interfaceName s faults (.error error) u
  | flushFails {object : SocketObject} {u : InterfaceLifecycle} {error : Error}
      (hObject : s.sockets.objects 0 = some object)
      (hConnect : s.connect interfaceName object faults.connect = some (.ok (), u))
      (hAdd : faults.epollAdd = none) (hFlush : flush u.sockFd faults.flush = .error error) :
      StartStep interfaceName s faults (.error error) { u with epoll := u.epoll ++ [u.sockFd.toNat] }
  | started {object : SocketObject} {u : InterfaceLifecycle}
      (hObject : s.sockets.objects 0 = some object)
      (hConnect : s.connect interfaceName object faults.connect = some (.ok (), u))
      (hAdd : faults.epollAdd = none) (hFlush : flush u.sockFd faults.flush = .ok ()) :
      StartStep interfaceName s faults (.ok ())
        ({ u with epoll := u.epoll ++ [u.sockFd.toNat] } : InterfaceLifecycle).spawn

theorem start_cases {s t : InterfaceLifecycle} {faults : StartFaults} {result : Except Error Unit}
    (h : s.start interfaceName faults = some (result, t)) :
    StartStep interfaceName s faults result t := by
  unfold start at h
  cases hObject : s.sockets.objects 0 with
  | none => simp [hObject] at h
  | some object =>
      simp only [hObject] at h
      cases hConnect : s.connect interfaceName object faults.connect with
      | none => simp [hConnect] at h
      | some connected =>
          obtain ⟨connection, u⟩ := connected
          cases connection with
          | error error =>
              simp only [hConnect, Option.some.injEq, Prod.mk.injEq] at h
              obtain ⟨rfl, rfl⟩ := h
              exact .connectFails hObject hConnect
          | ok =>
              simp only [hConnect] at h
              cases hAdd : faults.epollAdd with
              | some errno =>
                  simp only [hAdd, epollAdd, Option.some.injEq, Prod.mk.injEq] at h
                  obtain ⟨rfl, rfl⟩ := h
                  exact .addFails _ hObject hConnect hAdd
              | none =>
                  simp only [hAdd, epollAdd] at h
                  split_ifs at h with hMem
                  have hSame : sockFd { u with epoll := u.epoll ++ [u.sockFd.toNat] } = u.sockFd := rfl
                  simp only [hSame] at h
                  cases hFlush : flush u.sockFd faults.flush with
                  | error error =>
                      simp only [hFlush, Option.some.injEq, Prod.mk.injEq] at h
                      obtain ⟨rfl, rfl⟩ := h
                      exact .flushFails hObject hConnect hAdd hFlush
                  | ok =>
                      simp only [hFlush, Option.some.injEq, Prod.mk.injEq] at h
                      obtain ⟨rfl, rfl⟩ := h
                      exact .started hObject hConnect hAdd hFlush

/-- What `connect` leaves besides the sockets. -/
theorem connect_cases {s t : InterfaceLifecycle} {object : SocketObject} {outcome : ConnectOutcome}
    {result : Except Error Unit} (h : s.connect interfaceName object outcome = some (result, t)) :
    s.sockets.ensureConnected 0 object outcome = some (result, t.sockets) ∧
      t.epoll = s.epoll.filter (fun fd => fd ∉ closedSince s.sockets t.sockets) ∧
      t.threadEventFd = s.threadEventFd ∧ t.reapThread = s.reapThread ∧
      (∀ fd, outcome = .connected fd →
        t.bound = Function.update s.bound s.sockets.ledger.nextSerial
          (some (Interface.ifrName interfaceName))) := by
  unfold connect at h
  cases hConnect : s.sockets.ensureConnected 0 object outcome with
  | none => simp [hConnect] at h
  | some connected =>
      obtain ⟨same, sockets⟩ := connected
      simp only [hConnect, Option.some.injEq, Prod.mk.injEq] at h
      obtain ⟨rfl, rfl⟩ := h
      refine ⟨rfl, rfl, rfl, rfl, ?_⟩
      rintro fd rfl
      rfl

section Sockets

/-- What `start` does with the socket is a call of `ensure_connected`. -/
theorem StartStep.sockets {s t : InterfaceLifecycle} {faults : StartFaults} {result : Except Error Unit}
    (hStart : StartStep interfaceName s faults result t) :
    SocketObjects.machine.run s.sockets [.connect 0 faults.connect] = some t.sockets := by
  have hRun {object : SocketObject} {connection : Except Error Unit} {u : InterfaceLifecycle}
      (hObject : s.sockets.objects 0 = some object)
      (hConnect : s.connect interfaceName object faults.connect = some (connection, u)) :
      SocketObjects.machine.run s.sockets [.connect 0 faults.connect] = some u.sockets := by
    rw [Machine.run_cons, SocketObjects.step_connect hObject (connect_cases hConnect).1]
    rfl
  cases hStart with
  | connectFails hObject hConnect => exact hRun hObject hConnect
  | addFails _ hObject hConnect => exact hRun hObject hConnect
  | flushFails hObject hConnect =>
      have hConnected := hRun hObject hConnect
      exact hConnected
  | started hObject hConnect =>
      have hConnected := hRun hObject hConnect
      rw [spawn_sockets]
      exact hConnected

@[simp] theorem returns_sockets (call : LifecycleCall) (returned : Except Error Unit × InterfaceLifecycle) :
    (returns call returned).sockets = returned.2.sockets := by
  obtain ⟨result, s⟩ := returned
  cases result <;> rfl

theorem down_sockets (s : InterfaceLifecycle) (answers : ClientAnswers) (writeFault : Option (List UInt8)) :
    (s.down interfaceName answers writeFault).2.sockets = s.sockets := by
  unfold down stop
  split
  · rfl
  · split
    · rfl
    · cases writeFault <;> rfl

/-- What a step does with sockets is a run of the program that has the socket of the
dispatcher as its only object. -/
theorem step_sockets {s t : InterfaceLifecycle} {action : Action}
    (hStep : (machine type interfaceName).step s action = some t) :
    ∃ actions, SocketObjects.machine.run s.sockets actions = some t.sockets := by
  have hForeign {action : SocketObjects.Action} (hForeign : s.foreign action = some t) :
      SocketObjects.machine.run s.sockets [action] = some t.sockets := by
    obtain ⟨sockets, hSockets, rfl⟩ := Option.map_eq_some_iff.mp hForeign
    have hTaken : SocketObjects.machine.step s.sockets action = some sockets := hSockets
    rw [Machine.run_cons, hTaken]
    rfl
  change s.step type interfaceName action = some t at hStep
  cases action with
  | up bitrate answers faults =>
      obtain ⟨⟨result, u⟩, hUp, rfl⟩ := Option.map_eq_some_iff.mp hStep
      rw [returns_sockets]
      unfold up at hUp
      split at hUp
      · cases hUp
        exact ⟨[], rfl⟩
      · exact ⟨_, (start_cases hUp).sockets⟩
  | down answers writeFault =>
      cases hStep
      rw [returns_sockets, down_sockets]
      exact ⟨[], rfl⟩
  | exit =>
      simp only [InterfaceLifecycle.step, exit] at hStep
      split at hStep
      · cases hStep
      · split_ifs at hStep
        cases hStep
        exact ⟨[], rfl⟩
  | openForeign fd => exact ⟨_, hForeign hStep⟩
  | closeForeign fd =>
      simp only [InterfaceLifecycle.step] at hStep
      split_ifs at hStep
      exact ⟨_, hForeign hStep⟩

theorem init_sockets (application : Nat → Bool) (threadEventFd : Nat) :
    SocketObjects.machine.Reachable
      (SocketObjects.start fun fd => application fd || fd == threadEventFd)
      (init interfaceName application threadEventFd).sockets := by
  refine ⟨[.construct 0 .dispatcher interfaceName], ?_⟩
  simp only [SocketObjects.machine, Machine.run, SocketObjects.step, SocketObjects.start, init,
    Option.bind_some, Option.some.injEq]
  congr 1
  funext o
  rw [Function.update_apply]

theorem sockets_reachable {application : Nat → Bool} {threadEventFd : Nat} {s : InterfaceLifecycle}
    (h : (machine type interfaceName).Reachable (init interfaceName application threadEventFd) s) :
    SocketObjects.machine.Reachable
      (SocketObjects.start fun fd => application fd || fd == threadEventFd) s.sockets :=
  h.simulated sockets (init_sockets application threadEventFd) fun _ _ _ => step_sockets

end Sockets

/-- The descriptors of the epoll set are the eventfd and open CAN sockets, and a thread
exits only after a stop request. -/
structure Coherent (s : InterfaceLifecycle) : Prop where
  tracked : s.sockets.Tracked
  rightful : s.sockets.Rightful
  event : s.sockets.ledger.openings s.threadEventFd = some .foreign
  polled : s.threadEventFd ∈ s.epoll
  watched : ∀ fd ∈ s.epoll, fd ≠ s.threadEventFd →
    ∃ serial, s.sockets.ledger.openings fd = some (.issued serial)
  exited : ∀ reaper, s.reapThread = some reaper → reaper.exited = true → reaper.stopRequested = true

theorem coherent_init (application : Nat → Bool) (threadEventFd : Nat) :
    (init interfaceName application threadEventFd).Coherent where
  tracked := SocketObjects.tracked_of_reachable (init_sockets application threadEventFd)
  rightful := by simp [SocketObjects.Rightful, init, SocketObjects.start]
  event := by simp [init, SocketObjects.start]
  polled := List.mem_singleton_self _
  watched fd hMem hNe := absurd (List.mem_singleton.mp hMem) hNe
  exited := by simp [init]

/-- The eventfd is not the socket of the dispatcher. -/
theorem Coherent.event_not_released {s : InterfaceLifecycle} (h : s.Coherent) {object : SocketObject}
    (hObject : s.sockets.objects 0 = some object) : s.threadEventFd ∉ released object := by
  intro hMem
  obtain ⟨hPos, hFd⟩ := mem_released.mp hMem
  obtain ⟨fd, serial, hSame, hHeld⟩ :=
    h.tracked.held 0 object hObject (hFd ▸ Int.natCast_pos.mpr hPos)
  have hLive := (h.tracked.sound h.rightful).live 0 fd serial hHeld
  have hEq : fd = s.threadEventFd := Int.ofNat.inj (hSame.symm.trans hFd)
  rw [hEq, h.event] at hLive
  cases hLive

theorem Coherent.connect {s t : InterfaceLifecycle} (h : s.Coherent) {object : SocketObject}
    (hObject : s.sockets.objects 0 = some object) {outcome : ConnectOutcome}
    {result : Except Error Unit} (hConnect : s.connect interfaceName object outcome = some (result, t)) :
    t.Coherent := by
  obtain ⟨hSockets, hEpoll, hEventFd, hReaper, _⟩ := connect_cases hConnect
  have hOpen : s.threadEventFd ∉ closedSince s.sockets t.sockets := by
    intro hClosed
    rcases (ensureConnected_spec hSockets _).1 hClosed with hReleased | hNone
    · exact h.event_not_released hObject hReleased
    · simp [h.event] at hNone
  refine ⟨(h.tracked.ensureConnected hObject hSockets).1,
    SocketObjects.rightful_ensureConnected h.tracked hObject hSockets h.rightful, ?_, ?_, ?_, ?_⟩
  · rw [hEventFd, (ensureConnected_spec hSockets _).2 hOpen (by simp [h.event]), h.event]
  · rw [hEventFd, hEpoll, List.mem_filter]
    exact ⟨h.polled, by simpa using hOpen⟩
  · intro fd hMem hNe
    rw [hEpoll, List.mem_filter] at hMem
    obtain ⟨serial, hIssued⟩ := h.watched fd hMem.1 (hEventFd ▸ hNe)
    refine ⟨serial, ?_⟩
    rw [(ensureConnected_spec hSockets fd).2 (by simpa using hMem.2) (by simp [hIssued]), hIssued]
  · rw [hReaper]
    exact h.exited

/-- After a successful `ensure_connected`: the new socket, and the old ones that were
not closed. -/
structure Connected (interfaceName : List UInt8) (s : InterfaceLifecycle) (object : SocketObject)
    (fd : Nat) (t : InterfaceLifecycle) : Prop where
  sockFd : t.sockFd = fd
  fresh : fd ∉ released object → s.sockets.ledger.openings fd = none
  issued : t.sockets.ledger.openings fd = some (.issued s.sockets.ledger.nextSerial)
  bound : t.bound s.sockets.ledger.nextSerial = some (Interface.ifrName interfaceName)
  epoll : ∀ number, number ∈ t.epoll ↔ number ∈ s.epoll ∧ number ∉ released object
  threadEventFd : t.threadEventFd = s.threadEventFd
  reapThread : t.reapThread = s.reapThread

theorem connected_of_ok {s t : InterfaceLifecycle} {object : SocketObject} {outcome : ConnectOutcome}
    (hConnect : s.connect interfaceName object outcome = some (.ok (), t)) :
    ∃ fd, outcome = .connected fd ∧ Connected interfaceName s object fd t := by
  obtain ⟨hSockets, hEpoll, hEventFd, hReaper, hBound⟩ := connect_cases hConnect
  obtain ⟨fd, rfl, hClosed, hFree, hSame⟩ := ensureConnected_ok hSockets
  obtain ⟨_, _, _, hOpenings⟩ := disconnect_spec s.sockets 0 object
  have hSerial := SocketObjects.disconnect_nextSerial s.sockets 0 object
  refine ⟨fd, rfl, ?_, ?_, ?_, ?_, ?_, hEventFd, hReaper⟩
  · have hObject : t.sockets.objects 0 =
        some { object with socket := { object.socket with sockFd := fd } } := by
      rw [hSame]
      exact SocketObjects.setFd_objects_self (s.sockets.disconnect 0 object) 0 object fd
    simp only [InterfaceLifecycle.sockFd, hObject]
  · intro hNot
    rw [← hFree, hOpenings, if_neg hNot]
  · rw [hSame, openings_obtain, if_pos rfl, hSerial]
  · rw [hBound fd rfl, Function.update_self]
  · intro number
    rw [hEpoll, hClosed, List.mem_filter]
    simp

theorem Coherent.addSocket {s : InterfaceLifecycle} (h : s.Coherent) {fd serial : Nat}
    (hIssued : s.sockets.ledger.openings fd = some (.issued serial)) :
    ({ s with epoll := s.epoll ++ [fd] } : InterfaceLifecycle).Coherent where
  tracked := h.tracked
  rightful := h.rightful
  event := h.event
  polled := List.mem_append_left _ h.polled
  watched number hMem hNe := by
    rcases List.mem_append.mp hMem with hOld | hNew
    · exact h.watched number hOld hNe
    · exact ⟨serial, List.mem_singleton.mp hNew ▸ hIssued⟩
  exited := h.exited

theorem Coherent.spawn {s : InterfaceLifecycle} (h : s.Coherent) : s.spawn.Coherent := by
  refine ⟨by simpa using h.tracked, by simpa using h.rightful, by simpa using h.event,
    by simpa using h.polled, by simpa using h.watched, ?_⟩
  intro reaper hSpawned hExited
  rw [spawn_reapThread, Option.some.injEq] at hSpawned
  cases hReaper : s.reapThread with
  | some old =>
      rw [hReaper, Option.getD_some] at hSpawned
      exact h.exited reaper (hSpawned ▸ hReaper) hExited
  | none =>
      rw [hReaper, Option.getD_none] at hSpawned
      simp [← hSpawned] at hExited

theorem Coherent.start {s t : InterfaceLifecycle} (h : s.Coherent) {faults : StartFaults}
    {result : Except Error Unit} (hStart : StartStep interfaceName s faults result t) : t.Coherent := by
  cases hStart with
  | connectFails hObject hConnect => exact h.connect hObject hConnect
  | addFails _ hObject hConnect => exact h.connect hObject hConnect
  | flushFails hObject hConnect =>
      obtain ⟨fd, _, hConnected⟩ := connected_of_ok hConnect
      rw [hConnected.sockFd]
      exact (h.connect hObject hConnect).addSocket hConnected.issued
  | started hObject hConnect =>
      obtain ⟨fd, _, hConnected⟩ := connected_of_ok hConnect
      rw [hConnected.sockFd]
      exact ((h.connect hObject hConnect).addSocket hConnected.issued).spawn

theorem Coherent.stop {s : InterfaceLifecycle} (h : s.Coherent) (writeFault : Option (List UInt8)) :
    (s.stop writeFault).2.Coherent := by
  unfold InterfaceLifecycle.stop
  cases hReaper : s.reapThread with
  | none => exact h
  | some reaper =>
      cases writeFault with
      | some errno =>
          refine ⟨h.tracked, h.rightful, h.event, h.polled, h.watched, ?_⟩
          intro stopped hStopped _
          cases hStopped
          rfl
      | none => exact ⟨h.tracked, h.rightful, h.event, h.polled, h.watched, by simp⟩

theorem Coherent.returns {s : InterfaceLifecycle} (call : LifecycleCall) {result : Except Error Unit}
    (h : s.Coherent) : (returns call (result, s)).Coherent := by
  cases result <;> exact ⟨h.tracked, h.rightful, h.event, h.polled, h.watched, h.exited⟩

/-- Others open and close descriptors that are not the interface's. -/
theorem Coherent.of_issued {s : InterfaceLifecycle} (h : s.Coherent) (after : Ledger Nat)
    (hHeld : after.held = s.sockets.ledger.held)
    (hSerial : after.nextSerial = s.sockets.ledger.nextSerial)
    (hIssued : ∀ fd serial, after.openings fd = some (.issued serial) ↔
      s.sockets.ledger.openings fd = some (.issued serial))
    (hEvent : after.openings s.threadEventFd = some .foreign) :
    ({ s with sockets := { s.sockets with ledger := after }, succeeded := none } :
      InterfaceLifecycle).Coherent where
  tracked := (h.tracked.of_issued after hHeld hSerial hIssued).1
  rightful := h.rightful
  event := hEvent
  polled := h.polled
  watched fd hMem hNe := by
    obtain ⟨serial, hOpen⟩ := h.watched fd hMem hNe
    exact ⟨serial, (hIssued fd serial).mpr hOpen⟩
  exited := h.exited

theorem Coherent.step {s t : InterfaceLifecycle} (h : s.Coherent) {action : Action}
    (hStep : (machine type interfaceName).step s action = some t) : t.Coherent := by
  change s.step type interfaceName action = some t at hStep
  cases action with
  | up bitrate answers faults =>
      obtain ⟨⟨result, u⟩, hUp, rfl⟩ := Option.map_eq_some_iff.mp hStep
      unfold up at hUp
      split at hUp
      · cases hUp
        exact h.returns .up
      · exact (h.start (start_cases hUp)).returns .up
  | down answers writeFault =>
      cases hStep
      unfold down
      split
      · exact h.returns .down
      · exact (h.stop writeFault).returns .down
  | exit =>
      simp only [InterfaceLifecycle.step, exit] at hStep
      split at hStep
      · cases hStep
      · split_ifs at hStep with hStop
        cases hStep
        refine ⟨h.tracked, h.rightful, h.event, h.polled, h.watched, ?_⟩
        intro reaper hReaper _
        cases hReaper
        exact hStop
  | openForeign fd =>
      obtain ⟨sockets, hSockets, rfl⟩ := Option.map_eq_some_iff.mp hStep
      cases SocketObjects.step_cases hSockets with
      | opened hFree =>
          have hNe : s.threadEventFd ≠ fd := by
            rintro hSame
            simp [← hSame, h.event] at hFree
          exact h.of_issued (s.sockets.ledger.openForeign fd) rfl rfl
            (fun _ _ => Ledger.issued_openForeign hFree) (by simp [Ledger.openForeign, hNe, h.event])
  | closeForeign fd =>
      simp only [InterfaceLifecycle.step] at hStep
      split_ifs at hStep with hEvent
      obtain ⟨sockets, hSockets, rfl⟩ := Option.map_eq_some_iff.mp hStep
      cases SocketObjects.step_cases hSockets with
      | closed hForeign =>
          have hNe : s.threadEventFd ≠ fd := fun hSame => hEvent hSame.symm
          exact h.of_issued (s.sockets.ledger.close fd) rfl rfl
            (fun _ _ => Ledger.issued_closeForeign hForeign) (by simp [Ledger.close, hNe, h.event])

theorem coherent_of_reachable {application : Nat → Bool} {threadEventFd : Nat} {s : InterfaceLifecycle}
    (h : (machine type interfaceName).Reachable (init interfaceName application threadEventFd) s) :
    s.Coherent :=
  h.invariant (coherent_init application threadEventFd) fun _ _ _ hCoherent hStep =>
    hCoherent.step hStep

end HyCAN.InterfaceLifecycle
