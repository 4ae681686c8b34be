import HyCAN.Interface.LifecycleSuccess

/-! What is left of the reception when `start` fails on a dispatcher whose reaper runs. The
thread is never touched; what counts is whether a socket stays in its epoll set. -/
namespace HyCAN.InterfaceLifecycle

open Ownership Transition

variable (type : InterfaceType) (interfaceName : List UInt8)

/-- The descriptor is in the epoll set, and an open socket that is bound to the link. -/
def Watches (s : InterfaceLifecycle) (fd : Nat) : Prop :=
  fd ∈ s.epoll ∧ ∃ serial, s.sockets.ledger.openings fd = some (.issued serial) ∧
    s.bound serial = some (Interface.ifrName interfaceName)

/-- The reaper runs, and frames of the link come to it. -/
structure Receiving (s : InterfaceLifecycle) : Prop where
  reaper : ∃ reaper, s.reapThread = some reaper ∧ reaper.exited = false
  socket : ∃ fd, s.Watches interfaceName fd

/-- A socket that `ensure_connected` does not close, because it is none of the
dispatcher's any more or its number is 0. -/
def HasSpare (s : InterfaceLifecycle) : Prop :=
  ∃ fd, s.Watches interfaceName fd ∧ ¬(0 < fd ∧ s.sockFd = fd)

/-- The new socket is connected and in the epoll set before anything can fail. -/
def FailsInFlush (faults : StartFaults) : Prop :=
  (∃ fd, faults.connect = .connected fd) ∧ faults.epollAdd = none

section Start

variable {interfaceName} {s u : InterfaceLifecycle} {object : SocketObject} {outcome : ConnectOutcome}
  {result : Except Error Unit}

/-- Only the new opening is bound to anything else than before. -/
theorem bound_connect (hConnect : s.connect interfaceName object outcome = some (result, u))
    {serial : Nat} (hOld : serial ≠ s.sockets.ledger.nextSerial) : u.bound serial = s.bound serial := by
  unfold connect at hConnect
  cases hSockets : s.sockets.ensureConnected 0 object outcome with
  | none => simp [hSockets] at hConnect
  | some connected =>
      simp only [hSockets, Option.some.injEq, Prod.mk.injEq] at hConnect
      rw [← hConnect.2]
      cases outcome with
      | connected fd => exact Function.update_of_ne hOld _ _
      | socketFails | indexFails | bindFails => rfl

/-- Of the sockets that were watched, those are left that were not released. -/
theorem Coherent.watches_connect_iff (h : s.Coherent) (hObject : s.sockets.objects 0 = some object)
    (hConnect : s.connect interfaceName object outcome = some (result, u)) (fd : Nat) :
    u.Watches interfaceName fd ↔ s.Watches interfaceName fd ∧ ¬(0 < fd ∧ s.sockFd = fd) := by
  obtain ⟨hSockets, hEpoll, _⟩ := connect_cases hConnect
  have hReleased : fd ∈ released object ↔ 0 < fd ∧ s.sockFd = fd := by
    rw [mem_released, sockFd_eq hObject]
  have hMem : fd ∈ u.epoll ↔ fd ∈ s.epoll ∧ fd ∉ closedSince s.sockets u.sockets := by
    rw [hEpoll, List.mem_filter, decide_eq_true_iff]
  have hBound {serial : Nat} (hIssued : s.sockets.ledger.openings fd = some (.issued serial)) :
      u.bound serial = s.bound serial :=
    bound_connect hConnect (((h.tracked.sound h.rightful).fresh fd serial hIssued).ne)
  constructor
  · rintro ⟨hWatched, serial, hIssued, hLink⟩
    obtain ⟨hOld, hOpen⟩ := hMem.mp hWatched
    have hWasOpen : s.sockets.ledger.openings fd ≠ none := by
      rcases eq_or_ne fd s.threadEventFd with hEvent | hNe
      · simp [hEvent, h.event]
      · obtain ⟨before, hBefore⟩ := h.watched fd hOld hNe
        simp [hBefore]
    have hSame := (ensureConnected_spec hSockets fd).2 hOpen hWasOpen
    rw [hSame] at hIssued
    refine ⟨⟨hOld, serial, hIssued, (hBound hIssued).symm.trans hLink⟩, fun hPositive => ?_⟩
    exact hOpen (released_subset_closedSince hSockets (hReleased.mpr hPositive))
  · rintro ⟨⟨hOld, serial, hIssued, hLink⟩, hSpare⟩
    have hOpen : fd ∉ closedSince s.sockets u.sockets := by
      intro hClosed
      rcases (ensureConnected_spec hSockets fd).1 hClosed with hGone | hNone
      · exact hSpare (hReleased.mp hGone)
      · simp [hIssued] at hNone
    refine ⟨hMem.mpr ⟨hOld, hOpen⟩, serial, ?_, (hBound hIssued).trans hLink⟩
    rw [(ensureConnected_spec hSockets fd).2 hOpen (by simp [hIssued]), hIssued]

/-- What was watched of sockets that stay, and nothing else, is watched after a `start` that
fails before its flush. -/
theorem Coherent.receiving_connect_iff (h : s.Coherent) (hReceiving : s.Receiving interfaceName)
    (hObject : s.sockets.objects 0 = some object)
    (hConnect : s.connect interfaceName object outcome = some (result, u)) :
    u.Receiving interfaceName ↔ s.HasSpare interfaceName := by
  obtain ⟨_, _, _, hReaper, _⟩ := connect_cases hConnect
  constructor
  · rintro ⟨_, fd, hWatched⟩
    exact ⟨fd, (h.watches_connect_iff hObject hConnect fd).mp hWatched⟩
  · rintro ⟨fd, hSpare⟩
    refine ⟨?_, fd, (h.watches_connect_iff hObject hConnect fd).mpr hSpare⟩
    rw [hReaper]
    exact hReceiving.reaper

/-- A `start` that fails in its flush has the new socket in the epoll set. -/
theorem Connected.receiving {fd : Nat} (hConnected : Connected interfaceName s object fd u)
    (hReceiving : s.Receiving interfaceName) :
    ({ u with epoll := u.epoll ++ [fd] } : InterfaceLifecycle).Receiving interfaceName where
  reaper := by
    obtain ⟨reaper, hReaper, hRuns⟩ := hReceiving.reaper
    exact ⟨reaper, hConnected.reapThread.trans hReaper, hRuns⟩
  socket := ⟨fd, List.mem_append_right _ (List.mem_singleton_self fd), _, hConnected.issued,
    hConnected.bound⟩

end Start

/-- When `start` fails on a dispatcher that receives, it still receives exactly if it was the
flush that failed, or a socket is left that `ensure_connected` does not close. -/
theorem failed_restart_keeps_reception_iff {application : Nat → Bool} {threadEventFd : Nat}
    {s t : InterfaceLifecycle} {faults : StartFaults} {error : Error}
    (hReachable : (machine type interfaceName).Reachable
      (init interfaceName application threadEventFd) s)
    (hReceiving : s.Receiving interfaceName)
    (hStart : s.start interfaceName faults = some (.error error, t)) :
    t.Receiving interfaceName ↔ FailsInFlush faults ∨ s.HasSpare interfaceName := by
  have hCoherent := coherent_of_reachable hReachable
  cases start_cases hStart with
  | connectFails hObject hConnect =>
      have hEarly : ¬FailsInFlush faults := by
        rintro ⟨⟨fd, hOutcome⟩, _⟩
        rw [hOutcome] at hConnect
        cases SocketObjects.ensureConnected_result (connect_cases hConnect).1
      rw [hCoherent.receiving_connect_iff hReceiving hObject hConnect, or_iff_right hEarly]
  | addFails _ hObject hConnect hAdd =>
      have hEarly : ¬FailsInFlush faults := by
        rintro ⟨_, hNone⟩
        rw [hAdd] at hNone
        cases hNone
      rw [hCoherent.receiving_connect_iff hReceiving hObject hConnect, or_iff_right hEarly]
  | flushFails hObject hConnect hAdd =>
      obtain ⟨fd, hOutcome, hConnected⟩ := connected_of_ok hConnect
      rw [hConnected.sockFd]
      exact iff_of_true (hConnected.receiving hReceiving) (.inl ⟨⟨fd, hOutcome⟩, hAdd⟩)

/-- An interface that has been brought up. -/
def vcan0Up : InterfaceLifecycle :=
  let start := init (ascii "vcan0") (fun fd => fd < 5) 5
  ((machine .vcan (ascii "vcan0")).run start [.up 500000 allWell ⟨.connected 7, none, none⟩]).getD start

theorem vcan0Up_reachable : (machine .vcan (ascii "vcan0")).Reachable
    (init (ascii "vcan0") (fun fd => fd < 5) 5) vcan0Up := by
  have hReturns : ((machine .vcan (ascii "vcan0")).run (init (ascii "vcan0") (fun fd => fd < 5) 5)
      [.up 500000 allWell ⟨.connected 7, none, none⟩]).isSome = true := by decide +kernel
  obtain ⟨s, hRun⟩ := Option.isSome_iff_exists.mp hReturns
  have hSame : vcan0Up = s := by
    simp only [vcan0Up, hRun, Option.getD_some]
  exact ⟨_, hSame ▸ hRun⟩

theorem vcan0Up_receiving : vcan0Up.Receiving (ascii "vcan0") where
  reaper := ⟨⟨false, false⟩, by decide +kernel, rfl⟩
  socket := ⟨7, by decide +kernel, 0, by decide +kernel, by decide +kernel⟩

/-- The process has no descriptor left for a new socket. -/
def noSocket : StartFaults :=
  ⟨.socketFails (ascii "Too many open files"), none, none⟩

theorem vcan0Up_start_noSocket : ∃ error t,
    vcan0Up.start (ascii "vcan0") noSocket = some (.error error, t) ∧ t.epoll = [5] ∧
      t.sockets.ledger.openings 5 = some .foreign := by
  have hEnds : (vcan0Up.start (ascii "vcan0") noSocket).map
      (fun done => (done.1.isOk, done.2.epoll, done.2.sockets.ledger.openings 5)) =
        some (false, [5], some .foreign) := by decide +kernel
  obtain ⟨⟨result, t⟩, hStart, hState⟩ := Option.map_eq_some_iff.mp hEnds
  obtain ⟨hResult, hState⟩ := Prod.mk.inj hState
  obtain ⟨hEpoll, hEvent⟩ := Prod.mk.inj hState
  cases result with
  | ok => cases hResult
  | error error => exact ⟨error, t, hStart, hEpoll, hEvent⟩

theorem failed_restart_keeps_reception_vcan0 :
    ∃ error t, vcan0Up.start (ascii "vcan0") noSocket = some (.error error, t) ∧
      (t.Receiving (ascii "vcan0") ↔ FailsInFlush noSocket ∨ vcan0Up.HasSpare (ascii "vcan0")) := by
  obtain ⟨error, t, hStart, _⟩ := vcan0Up_start_noSocket
  exact ⟨error, t, hStart, failed_restart_keeps_reception_iff .vcan (ascii "vcan0") vcan0Up_reachable
    vcan0Up_receiving hStart⟩

/-- After the failed `start` there is nothing but the eventfd in the epoll set. -/
theorem reception_lost_after_failed_restart :
    ¬∀ (type : InterfaceType) (interfaceName : List UInt8) (application : Nat → Bool)
        (threadEventFd : Nat) (s t : InterfaceLifecycle) (faults : StartFaults) (error : Error),
      (machine type interfaceName).Reachable (init interfaceName application threadEventFd) s →
        s.Receiving interfaceName → s.start interfaceName faults = some (.error error, t) →
          t.Receiving interfaceName := by
  intro hClaim
  obtain ⟨error, t, hStart, hEpoll, hEvent⟩ := vcan0Up_start_noSocket
  obtain ⟨fd, hMem, serial, hIssued, _⟩ := (hClaim .vcan (ascii "vcan0") _ _ vcan0Up t noSocket error
    vcan0Up_reachable vcan0Up_receiving hStart).socket
  rw [hEpoll, List.mem_singleton] at hMem
  rw [hMem, hEvent] at hIssued
  cases hIssued

end HyCAN.InterfaceLifecycle
