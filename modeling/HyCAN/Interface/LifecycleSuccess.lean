import HyCAN.Interface.LifecycleSteps

/-! What a successful `up` or `down` means. `up` relies on the thread object: if there is
one it starts no thread, even if the thread is about to leave or has left. And it
relies on `ensure_connected` to have closed the old socket. -/
namespace HyCAN.InterfaceLifecycle

open Ownership Transition

variable (type : InterfaceType) (interfaceName : List UInt8)

/-- A reaper runs and is not told to stop, and its epoll set is the eventfd and one open
CAN socket that is bound to the link. -/
structure UpAndReading (s : InterfaceLifecycle) : Prop where
  reaper : ∃ reaper, s.reapThread = some reaper ∧ reaper.stopRequested = false ∧ reaper.exited = false
  epoll : ∃ fd serial, s.sockets.ledger.openings fd = some (.issued serial) ∧
    s.bound serial = some (Interface.ifrName interfaceName) ∧
    ∀ number, number ∈ s.epoll ↔ number = s.threadEventFd ∨ number = fd

/-- After a successful `up` the interface is up and reading, and after a successful
`down` there is no reaper. -/
def KeepsSuccess (s : InterfaceLifecycle) : Prop :=
  (s.succeeded = some .up → s.UpAndReading interfaceName) ∧
    (s.succeeded = some .down → s.reapThread = none)

/-- What `start` relies on: no stop was requested of the thread it may find, and the only
CAN socket in the epoll set is the `sock_fd` that `ensure_connected` will close. -/
structure Restartable (s : InterfaceLifecycle) : Prop where
  reaper : ∀ reaper, s.reapThread = some reaper → reaper.stopRequested = false
  epoll : ∀ fd ∈ s.epoll, fd ≠ s.threadEventFd → 0 < fd ∧ s.sockFd = fd

/-- No call that `start` makes fails. -/
def succeeds (faults : StartFaults) : Prop :=
  (∃ fd, faults.connect = .connected fd) ∧ faults.epollAdd = none ∧ faults.flush = none

/-- An `up` in which nothing fails finds the interface restartable. -/
def StartsAfresh (s : InterfaceLifecycle) : Action → Prop
  | .up bitrate answers faults =>
    answered (Interface.linkUp type interfaceName bitrate) answers = .ok () → succeeds faults →
      s.Restartable
  | _ => True

variable {type interfaceName}

theorem flush_eq_ok_iff {fd : Nat} {fault : Option (List UInt8)} :
    flush fd fault = .ok () ↔ fault = none := by
  unfold flush
  rw [if_neg (Int.not_lt.mpr (Int.natCast_nonneg fd))]
  cases fault <;> simp

/-- `start` returns success exactly if nothing fails in it. -/
theorem StartStep.result_iff {s t : InterfaceLifecycle} {faults : StartFaults}
    {result : Except Error Unit} (h : StartStep interfaceName s faults result t) :
    result = .ok () ↔ succeeds faults := by
  cases h with
  | connectFails hObject hConnect =>
      refine iff_of_false (by simp) ?_
      rintro ⟨⟨fd, hConnected⟩, _⟩
      rw [hConnected] at hConnect
      cases SocketObjects.ensureConnected_result (connect_cases hConnect).1
  | addFails _ hObject hConnect hAdd =>
      refine iff_of_false (by simp) ?_
      rintro ⟨_, hNone, _⟩
      simp [hAdd] at hNone
  | flushFails hObject hConnect hAdd hFlush =>
      obtain ⟨fd, _, hConnected⟩ := connected_of_ok hConnect
      refine iff_of_false (by simp) ?_
      rintro ⟨_, _, hNone⟩
      rw [hConnected.sockFd, flush_eq_ok_iff.mpr hNone] at hFlush
      cases hFlush
  | started hObject hConnect hAdd hFlush =>
      obtain ⟨fd, hOutcome, hConnected⟩ := connected_of_ok hConnect
      rw [hConnected.sockFd, flush_eq_ok_iff] at hFlush
      exact iff_of_true rfl ⟨⟨fd, hOutcome⟩, hAdd, hFlush⟩

section Started

variable {s u : InterfaceLifecycle} {object : SocketObject} {fd : Nat}

/-- A new descriptor is neither the eventfd nor a socket that is still in the epoll set. -/
theorem Coherent.fresh_ne (h : s.Coherent) (hConnected : Connected interfaceName s object fd u)
    {number : Nat} (hMem : number ∈ s.epoll) (hNot : number ∉ released object) : number ≠ fd := by
  rintro rfl
  have hFree := hConnected.fresh hNot
  rcases eq_or_ne number s.threadEventFd with rfl | hNe
  · simp [h.event] at hFree
  · obtain ⟨serial, hIssued⟩ := h.watched number hMem hNe
    simp [hFree] at hIssued

theorem sockFd_eq (hObject : s.sockets.objects 0 = some object) :
    s.sockFd = object.socket.sockFd := by
  simp only [sockFd, hObject]

theorem Restartable.upAndReading (hRestart : s.Restartable) (h : s.Coherent)
    (hObject : s.sockets.objects 0 = some object)
    (hConnected : Connected interfaceName s object fd u) :
    ({ u with epoll := u.epoll ++ [fd] } : InterfaceLifecycle).spawn.UpAndReading interfaceName := by
  have hEpoll : ∀ number, number ∈ u.epoll ++ [fd] ↔ number = u.threadEventFd ∨ number = fd := by
    intro number
    rw [List.mem_append, List.mem_singleton, hConnected.epoll, hConnected.threadEventFd]
    refine or_congr_left ?_
    constructor
    · rintro ⟨hMem, hNot⟩
      by_contra hNe
      obtain ⟨hPos, hFd⟩ := hRestart.epoll number hMem hNe
      exact hNot (mem_released.mpr ⟨hPos, (sockFd_eq hObject).symm.trans hFd⟩)
    · rintro rfl
      exact ⟨h.polled, h.event_not_released hObject⟩
  refine ⟨?_, fd, _, by simpa using hConnected.issued, by simpa using hConnected.bound,
    by simpa using hEpoll⟩
  rw [spawn_reapThread]
  cases hReaper : u.reapThread with
  | none => exact ⟨_, rfl, rfl, rfl⟩
  | some reaper =>
      have hSame : s.reapThread = some reaper := hConnected.reapThread ▸ hReaper
      have hStop := hRestart.reaper reaper hSame
      have hRunning : reaper.exited = false := by
        by_contra hExited
        simp [h.exited reaper hSame (by simpa using hExited)] at hStop
      exact ⟨reaper, rfl, hStop, hRunning⟩

theorem UpAndReading.restartable
    (hUp : ({ u with epoll := u.epoll ++ [fd] } : InterfaceLifecycle).spawn.UpAndReading interfaceName)
    (h : s.Coherent) (hObject : s.sockets.objects 0 = some object)
    (hConnected : Connected interfaceName s object fd u) : s.Restartable := by
  obtain ⟨⟨reaper, hReaper, hStop, _⟩, other, _, _, _, hEpoll⟩ := hUp
  rw [spawn_epoll, spawn_threadEventFd] at hEpoll
  rw [spawn_reapThread, Option.some.injEq] at hReaper
  refine ⟨?_, ?_⟩
  · intro same hSame
    have hKept : u.reapThread = some same := hConnected.reapThread.trans hSame
    rw [hKept, Option.getD_some] at hReaper
    rw [hReaper, hStop]
  · intro number hMem hNe
    by_contra hKept
    have hNot : number ∉ released object := by
      rw [mem_released, ← sockFd_eq hObject]
      exact hKept
    have hOld : number = u.threadEventFd ∨ number = other :=
      (hEpoll number).mp (List.mem_append_left _ ((hConnected.epoll number).mpr ⟨hMem, hNot⟩))
    have hNew : fd = u.threadEventFd ∨ fd = other :=
      (hEpoll fd).mp (List.mem_append_right _ (List.mem_singleton_self fd))
    have hNumber : number = other := hOld.resolve_left (hConnected.threadEventFd ▸ hNe)
    have hFd : fd = other := by
      refine hNew.resolve_left fun hEvent => ?_
      exact h.fresh_ne hConnected h.polled (h.event_not_released hObject)
        (hEvent.trans hConnected.threadEventFd).symm
    exact h.fresh_ne hConnected hMem hNot (hNumber.trans hFd.symm)

end Started

theorem keepsSuccess_of_none {s : InterfaceLifecycle} (h : s.succeeded = none) :
    s.KeepsSuccess interfaceName := by
  simp [KeepsSuccess, h]

/-- A successful `up` keeps the law exactly if it started afresh. -/
theorem Coherent.keepsSuccess_start_iff {s t : InterfaceLifecycle} (h : s.Coherent)
    {faults : StartFaults} {result : Except Error Unit}
    (hStart : StartStep interfaceName s faults result t) :
    (InterfaceLifecycle.returns .up (result, t)).KeepsSuccess interfaceName ↔ (succeeds faults → s.Restartable) := by
  have hSucceeds := hStart.result_iff
  cases hStart with
  | connectFails | addFails | flushFails =>
      refine iff_of_true (keepsSuccess_of_none rfl) fun hNone => ?_
      cases hSucceeds.mpr hNone
  | @started object u hObject hConnect hAdd hFlush =>
      obtain ⟨fd, _, hConnected⟩ := connected_of_ok hConnect
      rw [hConnected.sockFd, imp_iff_right (hSucceeds.mp rfl)]
      have hLaw : ∀ v : InterfaceLifecycle,
          (InterfaceLifecycle.returns .up (.ok (), v)).KeepsSuccess interfaceName ↔
            v.UpAndReading interfaceName := by
        intro v
        constructor
        · rintro ⟨hUp, _⟩
          obtain ⟨hReaper, hEpoll⟩ := hUp rfl
          exact ⟨hReaper, hEpoll⟩
        · rintro ⟨hReaper, hEpoll⟩
          exact ⟨fun _ => ⟨hReaper, hEpoll⟩, fun hDown => by cases hDown⟩
      rw [hLaw]
      exact ⟨fun hUp => hUp.restartable h hObject hConnected,
        fun hRestart => hRestart.upAndReading h hObject hConnected⟩

theorem keepsSuccess_down (s : InterfaceLifecycle) (answers : ClientAnswers)
    (writeFault : Option (List UInt8)) :
    (returns .down (s.down interfaceName answers writeFault)).KeepsSuccess interfaceName := by
  unfold down
  split
  · exact keepsSuccess_of_none rfl
  · unfold stop
    cases hReaper : s.reapThread with
    | none =>
        refine ⟨fun hUp => ?_, fun _ => hReaper⟩
        cases hUp
    | some reaper =>
        cases writeFault with
        | some errno => exact keepsSuccess_of_none rfl
        | none =>
            refine ⟨fun hUp => ?_, fun _ => rfl⟩
            cases hUp

theorem Coherent.keepsSuccess_iff {s t : InterfaceLifecycle} (h : s.Coherent) {action : Action}
    (hStep : (machine type interfaceName).step s action = some t) :
    t.KeepsSuccess interfaceName ↔ s.StartsAfresh type interfaceName action := by
  change s.step type interfaceName action = some t at hStep
  cases action with
  | up bitrate answers faults =>
      obtain ⟨⟨result, u⟩, hUp, rfl⟩ := Option.map_eq_some_iff.mp hStep
      unfold up at hUp
      cases hLink : answered (Interface.linkUp type interfaceName bitrate) answers with
      | error error =>
          simp only [hLink, Option.some.injEq, Prod.mk.injEq] at hUp
          obtain ⟨rfl, rfl⟩ := hUp
          exact iff_of_true (keepsSuccess_of_none rfl) (by simp [StartsAfresh, hLink])
      | ok =>
          simp only [hLink] at hUp
          rw [h.keepsSuccess_start_iff (start_cases hUp)]
          simp [StartsAfresh, hLink]
  | down answers writeFault =>
      cases hStep
      exact iff_of_true (keepsSuccess_down s answers writeFault) trivial
  | exit =>
      refine iff_of_true (keepsSuccess_of_none ?_) trivial
      simp only [InterfaceLifecycle.step, exit] at hStep
      split at hStep
      · cases hStep
      · split_ifs at hStep
        cases hStep
        rfl
  | openForeign fd =>
      refine iff_of_true (keepsSuccess_of_none ?_) trivial
      obtain ⟨sockets, _, rfl⟩ := Option.map_eq_some_iff.mp hStep
      rfl
  | closeForeign fd =>
      refine iff_of_true (keepsSuccess_of_none ?_) trivial
      simp only [InterfaceLifecycle.step] at hStep
      split_ifs at hStep
      obtain ⟨sockets, _, rfl⟩ := Option.map_eq_some_iff.mp hStep
      rfl

variable (type interfaceName)

/-- In every sequence of calls, with failures at any stage, success means what it says
after every call exactly if each `up` in which nothing fails finds no thread that is
told to stop, and no CAN socket in the epoll set but a positive `sock_fd`. -/
theorem lifecycle_iff (application : Nat → Bool) (threadEventFd : Nat) (actions : List Action) :
    (∀ t, (machine type interfaceName).Passes (init interfaceName application threadEventFd) actions t →
        t.KeepsSuccess interfaceName) ↔
      ∀ s action t, (machine type interfaceName).Takes (init interfaceName application threadEventFd)
        actions s action t → s.StartsAfresh type interfaceName action := by
  refine Machine.passes_iff_takes (keepsSuccess_of_none rfl) ?_
  intro s action t hTakes _
  exact (coherent_of_reachable hTakes.source.reachable).keepsSuccess_iff hTakes.step

/-- The daemon and the link answer every call with success. -/
def allWell : ClientAnswers
  | _, .makeClient => none
  | _, .sendRequest _ => .ok (.ofQuery 0 true true)
  | _, .system _ => 0
  | _, .interfaceIndex _ => .ok 1

/-- The write of a `stop` fails, so the thread is told to stop but not joined. The next
`up` finds the thread object and reports success. -/
def failedDown : List Action :=
  [.up 500000 allWell ⟨.connected 7, none, none⟩, .down allWell (some (ascii "Bad file descriptor")),
    .up 500000 allWell ⟨.connected 8, none, none⟩]

theorem up_succeeds_with_stopped_reaper :
    ¬∀ (type : InterfaceType) (interfaceName : List UInt8) (application : Nat → Bool)
        (threadEventFd : Nat) (actions : List Action) (t : InterfaceLifecycle),
      (machine type interfaceName).Passes (init interfaceName application threadEventFd) actions t →
        t.KeepsSuccess interfaceName := by
  intro hClaim
  have hEnds : ((machine .vcan (ascii "vcan0")).run
      (init (ascii "vcan0") (fun fd => fd < 5) 5) failedDown).map
        (fun t => (t.succeeded, t.reapThread)) = some (some .up, some ⟨true, false⟩) := by
    decide +kernel
  obtain ⟨t, hRun, hState⟩ := Option.map_eq_some_iff.mp hEnds
  obtain ⟨hSucceeded, hStopped⟩ := Prod.mk.inj hState
  obtain ⟨⟨reaper, hReaper, hStop, _⟩, _⟩ := (hClaim _ _ _ _ _ t (.of_run hRun)).1 hSucceeded
  rw [hStopped] at hReaper
  cases hReaper
  cases hStop

end HyCAN.InterfaceLifecycle
