import HyCAN.Daemon.ShutdownSteps

/-! When a shutdown can deadlock. The handler joins the cleanup thread from inside
whatever it interrupts. If that is `handle_client_registration`, the cleanup
thread must not still have to lock `sessions_mutex_`. -/
namespace HyCAN.DaemonThreads

open Transition

/-- The cleanup thread does not come to `sessions_mutex_` without another test of `running_`. -/
def atTest (s : DaemonThreads) : Bool :=
  s.cleanupPc = .testing ∨ s.cleanupPc = .exited

/-- `stop` does not wait, on top of a registration, for a cleanup thread that has
yet to take the mutex. -/
def Clear (s : DaemonThreads) : Prop :=
  s.handler = some .joining → registering s.mainPc = true → s.atTest = true

/-- If `stop` stores false while it interrupts a registration that holds
`sessions_mutex_`, then the cleanup thread is at its test of `running_` or has exited. -/
def StopsClear (s : DaemonThreads) : Action → Prop
  | .handler => s.handler = some .storing → registering s.mainPc = true → s.atTest = true
  | _ => True

/-- The steps of the threads that run on while the main thread is in `stop`. -/
def Action.ofOthers : Action → Bool
  | .cleanup _ | .worker .. => true
  | _ => false

/-- Whatever the other threads do from here, there is no deadlock. -/
def NeverDeadlocks (s : DaemonThreads) : Prop :=
  ∀ actions : List Action, (∀ action ∈ actions, action.ofOthers = true) →
    ∀ t, machine.Passes s actions t → ¬t.Deadlocked

theorem mainHolds_cases {pc : MainPc} (h : mainHolds pc = true) :
    registering pc = true ∨ cleaningUp pc = true := by
  rcases Bool.or_eq_true_iff.mp h with hRegistering | hClearing
  · exact .inl hRegistering
  · cases pc <;> simp_all [clearing, cleaningUp]

/-- The cleanup thread waits for the main thread, which holds the mutex. -/
def WaitsForMain (s : DaemonThreads) : Prop :=
  s.cleanupPc = .locking ∧ s.sessionsMutex = some .main

instance (s : DaemonThreads) : Decidable s.WaitsForMain :=
  inferInstanceAs (Decidable (_ ∧ _))

theorem Ordered.not_waitsForMain {s : DaemonThreads} (h : s.Ordered) (hClear : s.Clear)
    (hStopping : s.Stopping) (hJoinable : s.cleanupJoinable = true) : ¬s.WaitsForMain := by
  rintro ⟨hLocking, hOwner⟩
  have hHolds : mainHolds s.mainPc = true := h.owned.main.mp hOwner
  rcases hStopping with hJoining | hDestroying
  · rcases mainHolds_cases hHolds with hRegistering | hCleaning
    · have hTest := hClear hJoining hRegistering
      simp [atTest, hLocking] at hTest
    · simp [h.stopped.cleaning hCleaning] at hJoinable
  · simp [hDestroying, mainHolds, registering, clearing] at hHolds

theorem stopBlockedOn_eq_some {s : DaemonThreads} {pc : StopPc}
    {b : Blocker DaemonThread DaemonLock} (h : s.stopBlockedOn pc = some b) :
    pc = .joining ∧ s.cleanupJoinable = true ∧ b = .join .cleanup := by
  cases pc with
  | storing => cases h
  | joining =>
      simp only [stopBlockedOn] at h
      split_ifs at h with hJoinable
      exact ⟨rfl, hJoinable, (Option.some.inj h).symm⟩

/-- What the main thread can be blocked on, and where. -/
theorem mainBlockedOn_cases {s : DaemonThreads} {b : Blocker DaemonThread DaemonLock}
    (h : s.mainBlockedOn = some b) :
    (b = .lock .sessions ∧ mainHolds s.mainPc = false) ∨ (∃ pid, b = .join (.worker pid)) ∨
      (b = .join .cleanup ∧ s.Stopping ∧ s.cleanupJoinable = true) := by
  unfold mainBlockedOn at h
  cases hHandler : s.handler with
  | some pc =>
      simp only [hHandler] at h
      obtain ⟨rfl, hJoinable, rfl⟩ := stopBlockedOn_eq_some h
      exact .inr (.inr ⟨rfl, .inl hHandler, hJoinable⟩)
  | none =>
      simp only [hHandler] at h
      cases hPc : s.mainPc with
      | locking | cleanupLocking =>
          rw [hPc] at h
          exact .inl ⟨(Option.some.inj h).symm, by simp [mainHolds, registering, clearing]⟩
      | joiningWorker pid =>
          rw [hPc] at h
          exact .inr (.inl ⟨pid, (Option.some.inj h).symm⟩)
      | destroying pc =>
          rw [hPc] at h
          obtain ⟨rfl, hJoinable, rfl⟩ := stopBlockedOn_eq_some h
          exact .inr (.inr ⟨rfl, .inr hPc, hJoinable⟩)
      | _ => simp [hPc, codeBlockedOn] at h

theorem cleanupBlockedOn_cases {s : DaemonThreads} {b : Blocker DaemonThread DaemonLock}
    (h : s.cleanupBlockedOn = some b) :
    (b = .lock .sessions ∧ s.cleanupPc = .locking) ∨ ∃ pid, b = .join (.worker pid) := by
  unfold cleanupBlockedOn at h
  split at h
  case h_1 hPc => exact .inl ⟨(Option.some.inj h).symm, hPc⟩
  case h_2 => exact .inr ⟨_, (Option.some.inj h).symm⟩
  case h_3 => cases h

/-- Workers wait for workers that do not wait, the cleanup thread waits for workers, and
of the main thread and the cleanup thread only one waits for the other. -/
def waitRank (s : DaemonThreads) : DaemonThread → Nat
  | .worker pid => if s.workers pid = .locking then 1 else 0
  | .main => 3
  | .cleanup => if s.WaitsForMain then 4 else 2

@[simp] theorem waitRank_worker (s : DaemonThreads) (pid : Int32) :
    s.waitRank (.worker pid) = if s.workers pid = .locking then 1 else 0 := rfl

@[simp] theorem waitRank_main (s : DaemonThreads) : s.waitRank .main = 3 := rfl

@[simp] theorem waitRank_cleanup (s : DaemonThreads) :
    s.waitRank .cleanup = if s.WaitsForMain then 4 else 2 := rfl

theorem waitRank_worker_lt (s : DaemonThreads) (pid : Int32) : s.waitRank (.worker pid) < 2 := by
  rw [waitRank_worker]
  split_ifs <;> omega

theorem le_waitRank_cleanup (s : DaemonThreads) : 2 ≤ s.waitRank .cleanup := by
  rw [waitRank_cleanup]
  split_ifs <;> omega

theorem Ordered.main_waits {s : DaemonThreads} (h : s.Ordered) (hClear : s.Clear)
    {other : DaemonThread} (hWaits : s.waitGraph.WaitsFor .main other) :
    s.waitRank other < s.waitRank .main := by
  rw [waitRank_main]
  cases hWaits with
  | lock hBlocked hOwner =>
      rcases mainBlockedOn_cases hBlocked with ⟨hSessions, hHolds⟩ | ⟨pid, hJoin⟩ | ⟨hJoin, _⟩
      · cases hSessions
        have hOwner : s.sessionsMutex = some other := hOwner
        cases other with
        | main => simp [h.owned.main.mp hOwner] at hHolds
        | cleanup =>
            have hNot : ¬s.WaitsForMain := by simp [WaitsForMain, hOwner]
            simp [hNot]
        | worker pid => exact absurd hOwner (h.owned.worker pid)
      · cases hJoin
      · cases hJoin
  | join hBlocked hRunning =>
      rcases mainBlockedOn_cases hBlocked with ⟨hLock, _⟩ | ⟨pid, hJoin⟩ | ⟨hJoin, hStopping, hJoinable⟩
      · cases hLock
      · cases hJoin
        exact Nat.lt_trans (s.waitRank_worker_lt pid) (by decide)
      · cases hJoin
        simp [h.not_waitsForMain hClear hStopping hJoinable]

theorem Ordered.cleanup_waits {s : DaemonThreads} (h : s.Ordered) {other : DaemonThread}
    (hWaits : s.waitGraph.WaitsFor .cleanup other) : s.waitRank other < s.waitRank .cleanup := by
  cases hWaits with
  | lock hBlocked hOwner =>
      rcases cleanupBlockedOn_cases hBlocked with ⟨hSessions, hPc⟩ | ⟨pid, hJoin⟩
      · cases hSessions
        have hOwner : s.sessionsMutex = some other := hOwner
        cases other with
        | main =>
            have hWaits : s.WaitsForMain := ⟨hPc, hOwner⟩
            simp [hWaits]
        | cleanup =>
            have hHolds := h.owned.cleanup.mp hOwner
            simp [hPc, cleanupHolds] at hHolds
        | worker pid => exact absurd hOwner (h.owned.worker pid)
      · cases hJoin
  | join hBlocked hRunning =>
      rcases cleanupBlockedOn_cases hBlocked with ⟨hLock, _⟩ | ⟨pid, hJoin⟩
      · cases hLock
      · cases hJoin
        exact Nat.lt_of_lt_of_le (s.waitRank_worker_lt pid) s.le_waitRank_cleanup

theorem Ordered.worker_waits {s : DaemonThreads} (h : s.Ordered) {pid : Int32}
    {other : DaemonThread} (hWaits : s.waitGraph.WaitsFor (.worker pid) other) :
    s.waitRank other < s.waitRank (.worker pid) := by
  have hBlockedOn : s.waitGraph.blockedOn (.worker pid) =
      if s.workers pid = .locking then some (.lock .manager) else none := rfl
  cases hWaits with
  | lock hBlocked hOwner =>
      rw [hBlockedOn] at hBlocked
      split_ifs at hBlocked with hPc
      cases hBlocked
      obtain ⟨holder, rfl, hProcessing⟩ := h.tracked.manager other hOwner
      simp [hPc, hProcessing]
  | join hBlocked hRunning =>
      rw [hBlockedOn] at hBlocked
      split_ifs at hBlocked with hPc
      cases hBlocked

theorem Ordered.not_deadlocked {s : DaemonThreads} (h : s.Ordered) (hClear : s.Clear) :
    ¬s.Deadlocked := by
  refine WaitGraph.not_deadlocked_of_rank s.waitRank ?_
  intro t other hWaits
  cases t with
  | main => exact h.main_waits hClear hWaits
  | cleanup => exact h.cleanup_waits hWaits
  | worker pid => exact h.worker_waits hWaits

/-- The main thread waits in `stop` for the cleanup thread, and that for the mutex. -/
theorem deadlocked_of_waitsForMain {s : DaemonThreads} (hHandler : s.handler = some .joining)
    (hJoinable : s.cleanupJoinable = true) (hWaits : s.WaitsForMain) : s.Deadlocked := by
  obtain ⟨hPc, hOwner⟩ := hWaits
  have hMain : s.waitGraph.WaitsFor .main .cleanup := by
    refine .join ?_ ?_
    · simp [waitGraph, mainBlockedOn, hHandler, stopBlockedOn, hJoinable]
    · simp [waitGraph, hPc]
  have hCleanup : s.waitGraph.WaitsFor .cleanup .main :=
    .lock (l := .sessions) (by simp [waitGraph, cleanupBlockedOn, hPc]) hOwner
  exact WaitGraph.deadlocked_of_pair hMain hCleanup

/-- `stop` waits, on top of a registration that holds `sessions_mutex_`, for the cleanup
thread, and that for the mutex. -/
structure RegistrationDeadlock (s : DaemonThreads) : Prop where
  handler : s.handler = some .joining
  joinable : s.cleanupJoinable = true
  registering : registering s.mainPc = true
  waits : s.WaitsForMain

theorem RegistrationDeadlock.deadlocked {s : DaemonThreads} (h : s.RegistrationDeadlock) : s.Deadlocked :=
  deadlocked_of_waitsForMain h.handler h.joinable h.waits

/-- The cleanup thread does not undo what `stop` relies on: if it tests `running_`, it
finds it false. -/
theorem CleanupStep.clear {s t : DaemonThreads} (hStep : CleanupStep s t) (h : s.Ordered)
    (hClear : s.Clear) : t.Clear := by
  intro hJoining hRegistering
  cases hStep with
  | loops hPc hRunning =>
      have hStopped : s.running = false := h.stopped.stopping (.inl hJoining)
      simp [hStopped] at hRunning
  | exits => rfl
  | wakes hPc | locked hPc | unlocked hPc | told hPc | kept hPc | joined hPc =>
      have hTest := hClear hJoining hRegistering
      simp [atTest, hPc] at hTest

theorem WorkerStep.clear {s t : DaemonThreads} {pid : Int32} (hStep : WorkerStep s pid t)
    (hClear : s.Clear) : t.Clear := by
  cases hStep <;> exact hClear

theorem Step.clear_of_ofOthers {s t : DaemonThreads} {action : Action} (hStep : Step s action t)
    (hOthers : action.ofOthers = true) (h : s.Ordered) (hClear : s.Clear) : t.Clear := by
  cases hStep with
  | interrupted | ignored | handler | main => simp [Action.ofOthers] at hOthers
  | cleanup hCleanup => exact hCleanup.clear h hClear
  | worker hWorker => exact hWorker.clear hClear

theorem Ordered.neverDeadlocks {s : DaemonThreads} (h : s.Ordered) (hClear : s.Clear) :
    s.NeverDeadlocks := by
  intro actions hOthers t hPasses
  have hKept : t.Ordered ∧ t.Clear := by
    refine hPasses.invariant (P := fun u => u.Ordered ∧ u.Clear) hOthers ⟨h, hClear⟩ ?_
    intro u action v hAction hBefore hStep
    have hStep := machine_step hStep
    exact ⟨hStep.ordered hBefore.1, hStep.clear_of_ofOthers hAction hBefore.1 hBefore.2⟩
  exact hKept.1.not_deadlocked hKept.2

/-- Where the cleanup thread is asleep, it is enough that it wakes up. -/
theorem Ordered.clear_of_neverDeadlocks {s : DaemonThreads} (h : s.Ordered)
    (hNever : s.NeverDeadlocks) : s.Clear := by
  intro hJoining hRegistering
  have hOwner : s.sessionsMutex = some .main := by
    apply h.owned.main.mpr
    simp [mainHolds, hRegistering]
  have hFree : cleanupHolds s.cleanupPc = false := by
    simpa [hOwner] using h.owned.cleanup
  cases hPc : s.cleanupPc with
  | testing | exited => simp [atTest, hPc]
  | passing | joiningWorker => simp [hPc, cleanupHolds] at hFree
  | sleeping =>
      have hJoinable : s.cleanupJoinable = true := by
        by_contra hGone
        simp [h.stopped.exited (by simpa using hGone)] at hPc
      have hStep : machine.step s (.cleanup false) = some { s with cleanupPc := .locking } := by
        change s.cleanupStep false = _
        simp [cleanupStep, hPc]
      have hPasses : machine.Passes s [.cleanup false] { s with cleanupPc := .locking } := by
        apply Machine.Passes.of_run
        rw [Machine.run_cons, hStep]
        rfl
      have hDeadlocked := deadlocked_of_waitsForMain (s := { s with cleanupPc := .locking })
        hJoining hJoinable ⟨rfl, hOwner⟩
      exact absurd hDeadlocked (hNever _ (by simp [Action.ofOthers]) _ hPasses)
  | locking =>
      have hJoinable : s.cleanupJoinable = true := by
        by_contra hGone
        simp [h.stopped.exited (by simpa using hGone)] at hPc
      exact absurd (deadlocked_of_waitsForMain hJoining hJoinable ⟨hPc, hOwner⟩)
        (hNever [] (by simp) s Machine.passes_start)

theorem Ordered.neverDeadlocks_iff {s : DaemonThreads} (h : s.Ordered) :
    s.NeverDeadlocks ↔ s.Clear :=
  ⟨h.clear_of_neverDeadlocks, h.neverDeadlocks⟩

/-- Only the store of `stop` can lose what it relies on. -/
theorem Step.clear_iff {s t : DaemonThreads} {action : Action} (hStep : Step s action t)
    (h : s.Ordered) (hClear : s.Clear) : t.Clear ↔ s.StopsClear action := by
  cases hStep with
  | interrupted => exact iff_of_true (by simp [Clear]) trivial
  | ignored => exact iff_of_true hClear trivial
  | handler hHandler hStop =>
      cases hStop with
      | stored => simp [Clear, StopsClear, hHandler, atTest]
      | joined | notJoinable =>
          exact iff_of_true (by simp [Clear]) (by simp [StopsClear, hHandler])
  | main hHandler hMain =>
      refine iff_of_true ?_ trivial
      have hNone : t.handler = none := by
        cases hMain with
        | destroys _ hStop =>
            obtain ⟨running, cleanupJoinable, rfl⟩ := hStop.frame
            exact hHandler
        | @registered pid created =>
            obtain ⟨sessions, active, workers, hSame⟩ := s.register_frame pid created
            rw [hSame]
            exact hHandler
        | _ => exact hHandler
      simp [Clear, hNone]
  | cleanup hCleanup => exact iff_of_true (hCleanup.clear h hClear) trivial
  | worker hWorker => exact iff_of_true (hWorker.clear hClear) trivial

/-- A run keeps out of all deadlocks, those included that the other threads would run
into while the main thread is in the handler, exactly if every store of `stop`
that interrupts a registration meets a cleanup thread that will test `running_`
before it locks. In such a run no state is a deadlock. -/
theorem never_deadlocks_iff (root : Bool) (actions : List Action) :
    ((∀ t, machine.Passes (init root) actions t → t.NeverDeadlocks) ↔
      ∀ s action t, machine.Takes (init root) actions s action t → s.StopsClear action) ∧
    ((∀ s action t, machine.Takes (init root) actions s action t → s.StopsClear action) →
      ∀ t, machine.Passes (init root) actions t → ¬t.Deadlocked) := by
  have hExact : (∀ t, machine.Passes (init root) actions t → t.Clear) ↔
      ∀ s action t, machine.Takes (init root) actions s action t → s.StopsClear action := by
    refine Machine.passes_iff_takes (by simp [Clear, init]) ?_
    intro s action t hTakes hClear
    exact (machine_step hTakes.step).clear_iff
      (ordered_of_reachable hTakes.source.reachable) hClear
  refine ⟨?_, ?_⟩
  · rw [← hExact]
    refine forall_congr' fun t => ?_
    refine imp_congr_right fun hPasses => ?_
    exact (ordered_of_reachable hPasses.reachable).neverDeadlocks_iff
  · intro hStops t hPasses
    exact (ordered_of_reachable hPasses.reachable).not_deadlocked (hExact.mpr hStops t hPasses)

/-- The cleanup thread goes to sleep, the main thread takes a registration request,
and the signal comes while it holds the mutex. -/
def signalInRegistration : List Action :=
  [.cleanup false, .main ⟨none, none⟩, .main ⟨none, none⟩, .main ⟨some 100, none⟩,
    .main ⟨none, none⟩, .signal, .handler]

/-- Once the cleanup thread has slept its thirty seconds, nobody goes on: the main
thread waits in `stop` for the cleanup thread, and that for the mutex of the main thread. -/
theorem signal_in_registration_deadlocks :
    ¬∀ (root : Bool) (actions : List Action) (t : DaemonThreads),
      machine.Passes (init root) actions t → ¬t.Deadlocked := by
  intro hClaim
  refine hClaim true (signalInRegistration ++ [.cleanup false]) _ (.of_run rfl) ?_
  exact deadlocked_of_waitsForMain rfl rfl ⟨rfl, rfl⟩

end HyCAN.DaemonThreads
