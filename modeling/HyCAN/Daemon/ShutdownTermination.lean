import HyCAN.Daemon.ShutdownDeadlock
import HyCAN.Transition.Ranking
import Mathlib.Algebra.Order.BigOperators.Group.List
import Mathlib.Algebra.Order.Ring.Nat

/-! The end of the daemon. Once `running_` is false, all threads together take no more steps than
what they still have in front of them, whatever clients and signals do, and where none can go
on, all have ended or the handler has met a registration. -/
namespace HyCAN.DaemonThreads

open Transition

/-- The steps that are left to `stop`. -/
def stopSteps : StopPc → Nat
  | .storing => 2
  | .joining => 1

/-- Those of the main thread, where the table has `stored` sessions. A registration at hand can
still store one more, whose worker tests once, and which the clean-up thread then passes. -/
def mainSteps (stored : Nat) : MainPc → Nat
  | .finished => 0
  | .destroying pc => stopSteps pc
  | .returned => 3
  | .cleaning left => 2 * left.length + 4
  | .joiningWorker _ left => 2 * left.length + 5
  | .cleanupLocking => 2 * stored + 5
  | .testing => 2 * stored + 6
  | .responding => 2 * stored + 7
  | .entering => 2 * stored + 7
  | .registering _ => 2 * stored + 13
  | .locking _ => 2 * stored + 14
  | .accepting => 2 * stored + 15

def cleanupSteps (stored : Nat) : CleanupPc → Nat
  | .exited => 0
  | .testing => 1
  | .passing left => 2 * left.length + 2
  | .joiningWorker _ left => 2 * left.length + 3
  | .locking => 2 * stored + 3
  | .sleeping => 2 * stored + 4

def workerSteps : WorkerPc → Nat
  | .exited => 0
  | .testing => 1
  | .sending => 2
  | .processing => 3
  | .locking => 4
  | .accepting => 5

def workersSteps (workers : Int32 → WorkerPc) (pids : List Int32) : Nat :=
  (pids.map fun pid => workerSteps (workers pid)).sum

/-- What all threads have in front of them. -/
def remaining (s : DaemonThreads) : Nat :=
  mainSteps s.sessions.length s.mainPc + s.handler.elim 0 stopSteps +
    cleanupSteps s.sessions.length s.cleanupPc + workersSteps s.workers s.unjoined

section Workers

variable {workers : Int32 → WorkerPc} {pids : List Int32} {pid : Int32} {pc : WorkerPc}

/-- A worker moves on. -/
theorem workersSteps_update_lt (hLess : workerSteps pc < workerSteps (workers pid)) (hMem : pid ∈ pids) :
    workersSteps (Function.update workers pid pc) pids < workersSteps workers pids := by
  unfold workersSteps
  apply List.sum_lt_sum
  · intro other _
    rcases eq_or_ne other pid with rfl | hNe
    · simpa using hLess.le
    · simp [hNe]
  · exact ⟨pid, hMem, by simpa using hLess⟩

/-- A worker that has exited does not count. -/
theorem workersSteps_erase (hExited : workers pid = .exited) :
    workersSteps workers (pids.erase pid) = workersSteps workers pids := by
  induction pids with
  | nil => rfl
  | cons other rest ih =>
      rcases eq_or_ne other pid with rfl | hNe
      · simp [workersSteps, hExited, workerSteps]
      · unfold workersSteps at ih ⊢
        rw [List.erase_cons_tail (by simpa using hNe), List.map_cons, List.map_cons, List.sum_cons,
          List.sum_cons, ih]

end Workers

/-- In a state where `running_` is false, a worker has one step less to go with each. -/
theorem workerStep_steps {s t : DaemonThreads} {pid : Int32} {request : Bool} (hRunning : s.running = false)
    (hStep : s.workerStep pid request = some t) : ∃ pc manager,
      t = { s with workers := Function.update s.workers pid pc, managerMutex := manager } ∧
        workerSteps pc < workerSteps (s.workers pid) := by
  unfold workerStep at hStep
  split at hStep
  case h_1 hPc =>
      refine ⟨_, s.managerMutex, (Option.some.inj hStep).symm, ?_⟩
      simp [hRunning, hPc, workerSteps]
  case h_2 hPc =>
      refine ⟨_, s.managerMutex, (Option.some.inj hStep).symm, ?_⟩
      cases request <;> simp [hPc, workerSteps]
  case h_3 hPc =>
      split_ifs at hStep
      exact ⟨_, _, (Option.some.inj hStep).symm, by simp [hPc, workerSteps]⟩
  case h_4 hPc => exact ⟨_, _, (Option.some.inj hStep).symm, by simp [hPc, workerSteps]⟩
  case h_5 hPc => exact ⟨_, s.managerMutex, (Option.some.inj hStep).symm, by simp [hPc, workerSteps]⟩
  case h_6 => cases hStep

theorem StopStep.steps {s u : DaemonThreads} {pc : StopPc} {next : Option StopPc} (h : StopStep s pc next u) :
    next.elim 0 stopSteps + 1 ≤ stopSteps pc := by
  cases h <;> simp [stopSteps]

theorem mainSteps_mono {few many : Nat} (h : few ≤ many) (pc : MainPc) : mainSteps few pc ≤ mainSteps many pc := by
  cases pc <;> simp only [mainSteps] <;> omega

theorem cleanupSteps_mono {few many : Nat} (h : few ≤ many) (pc : CleanupPc) :
    cleanupSteps few pc ≤ cleanupSteps many pc := by
  cases pc <;> simp only [cleanupSteps] <;> omega

/-- One session more is two steps more. -/
theorem cleanupSteps_succ (stored : Nat) (pc : CleanupPc) :
    cleanupSteps (stored + 1) pc ≤ cleanupSteps stored pc + 2 := by
  cases pc <;> simp only [cleanupSteps] <;> omega

/-- What the registration at hand adds to the others' work is less than what it had ahead. -/
theorem register_remaining {s : DaemonThreads} {pid : Int32} {created : Option Bool}
    (hPc : s.mainPc = .registering pid) (h : s.Tracked) :
    ({ s.register pid created with mainPc := .responding } : DaemonThreads).remaining + 1 ≤ s.remaining := by
  have hSame : ({ s with mainPc := .responding } : DaemonThreads).remaining + 1 ≤ s.remaining := by
    simp only [remaining, unjoined, hPc, mainSteps]
    omega
  unfold DaemonThreads.register
  split_ifs with hMem
  · exact hSame
  · cases created with
    | none => exact hSame
    | some thread =>
        have hUnjoined : s.unjoined = s.sessions := by
          simp [unjoined, hPc]
        have hGone : s.workers pid = .exited := by
          by_contra hRunning
          exact hMem (hUnjoined ▸ h.unjoined pid hRunning)
        have hCleanup := cleanupSteps_succ s.sessions.length s.cleanupPc
        have hOthers : workersSteps (Function.update s.workers pid (if thread then .testing else .exited))
            s.sessions = workersSteps s.workers s.sessions := by
          unfold workersSteps
          congr 1
          apply List.map_congr_left
          intro other hOther
          have hNe : other ≠ pid := by
            rintro rfl
            exact hMem hOther
          rw [Function.update_of_ne hNe]
        have hNew : workerSteps (if thread then WorkerPc.testing else .exited) ≤ 1 := by
          cases thread <;> decide
        have hWorkers : workersSteps (Function.update s.workers pid (if thread then .testing else .exited))
            (s.sessions ++ [pid]) ≤ workersSteps s.workers s.sessions + 1 := by
          rw [← hOthers]
          unfold workersSteps
          rw [List.map_append, List.sum_append]
          simpa using hNew
        change mainSteps (s.sessions ++ [pid]).length .responding + s.handler.elim 0 stopSteps +
          cleanupSteps (s.sessions ++ [pid]).length s.cleanupPc +
          workersSteps (Function.update s.workers pid (if thread then .testing else .exited))
            (s.sessions ++ [pid]) + 1 ≤ _
        rw [List.length_append, List.length_singleton]
        simp only [remaining, hUnjoined, hPc, mainSteps]
        omega

theorem MainStep.remaining_lt {s t : DaemonThreads} (hStep : MainStep s t) (h : s.Ordered)
    (hRunning : s.running = false) (hHandler : s.handler = none) : t.remaining + 1 ≤ s.remaining := by
  cases hStep with
  | loops _ hNot => simp [hRunning] at hNot
  | registered created hPc => exact register_remaining hPc h.tracked
  | entered hPc | notRoot hPc | leavesLoop hPc | nothing hPc | received _ hPc | locked hPc
  | responded hPc | cleanupLocked hPc | told hPc | returns hPc =>
      simp only [remaining, unjoined, hPc, mainSteps, List.length_cons, stopSteps]
      omega
  | cleared hPc =>
      have hCleanup := cleanupSteps_mono (Nat.zero_le s.sessions.length) s.cleanupPc
      simp only [remaining, unjoined, hPc, mainSteps, List.length_nil]
      omega
  | joined hPc hExited =>
      simp only [remaining, unjoined, hPc, mainSteps, workersSteps, List.map_cons, List.sum_cons, hExited,
        workerSteps]
      omega
  | @destroys pc next _ hPc hStop =>
      have hSteps := hStop.steps
      obtain ⟨running, cleanupJoinable, rfl⟩ := hStop.frame
      cases next <;> simp only [remaining, unjoined, hPc, mainSteps, Option.elim_none, Option.elim_some,
        hHandler] at hSteps ⊢ <;> omega

theorem CleanupStep.remaining_lt {s t : DaemonThreads} (hStep : CleanupStep s t)
    (hRunning : s.running = false) : t.remaining + 1 ≤ s.remaining := by
  cases hStep with
  | loops _ hNot => simp [hRunning] at hNot
  | exits hPc | wakes hPc | locked hPc | unlocked hPc | told hPc | kept hPc =>
      simp only [remaining, unjoined, hPc, cleanupSteps, List.length_cons]
      omega
  | @joined pid left hPc hExited =>
      have hLength := s.sessions.length_erase_le (a := pid)
      have hMain := mainSteps_mono hLength s.mainPc
      have hWorkers : workersSteps s.workers (unjoined { s with
          cleanupPc := .passing left, sessions := s.sessions.erase pid }) = workersSteps s.workers s.unjoined := by
        unfold unjoined
        cases s.mainPc <;> first | rfl | exact workersSteps_erase hExited
      simp only [remaining, hPc, cleanupSteps, hWorkers]
      omega

theorem worker_remaining_lt {s t : DaemonThreads} {pid : Int32} {request : Bool} (h : s.Ordered)
    (hRunning : s.running = false) (hStep : s.workerStep pid request = some t) :
    t.remaining + 1 ≤ s.remaining := by
  obtain ⟨pc, manager, rfl, hLess⟩ := workerStep_steps hRunning hStep
  have hMem : pid ∈ s.unjoined := by
    apply h.tracked.unjoined
    intro hExited
    simp [hExited, workerSteps] at hLess
  have hWorkers := workersSteps_update_lt hLess hMem
  change mainSteps s.sessions.length s.mainPc + s.handler.elim 0 stopSteps +
    cleanupSteps s.sessions.length s.cleanupPc +
    workersSteps (Function.update s.workers pid pc) s.unjoined + 1 ≤ _
  unfold remaining
  omega

/-- Signals come from outside. -/
def Action.price : Action → Nat
  | .signal => 0
  | .handler | .main _ | .cleanup _ | .worker .. => 1

/-- A signal makes the two steps of a `stop`. -/
def Action.allowance : Action → Nat
  | .signal => 2
  | .handler | .main _ | .cleanup _ | .worker .. => 0

/-- Nothing sets `running_` again. -/
theorem Step.stays_stopped {s t : DaemonThreads} {action : Action} (hStep : Step s action t)
    (hRunning : s.running = false) : t.running = false := by
  cases hStep with
  | interrupted | ignored => exact hRunning
  | handler _ hStop => cases hStop <;> first | rfl | exact hRunning
  | main _ hMain =>
      cases hMain with
      | @registered pid created =>
          obtain ⟨sessions, active, workers, hSame⟩ := s.register_frame pid created
          rw [hSame]
          exact hRunning
      | destroys _ hStop => cases hStop <;> first | rfl | exact hRunning
      | _ => exact hRunning
  | cleanup hCleanup => cases hCleanup <;> exact hRunning
  | worker hWorker => cases hWorker <;> exact hRunning

theorem ranked : machine.Ranked (fun s => s.Ordered ∧ s.running = false) remaining Action.price
    Action.allowance := by
  intro s action t hHolds _ hStep
  obtain ⟨hOrdered, hRunning⟩ := hHolds
  cases action with
  | worker pid request => exact worker_remaining_lt hOrdered hRunning hStep
  | main input =>
      cases machine_step hStep with
      | main hHandler hMain => exact hMain.remaining_lt hOrdered hRunning hHandler
  | cleanup expired =>
      cases machine_step hStep with
      | cleanup hCleanup => exact hCleanup.remaining_lt hRunning
  | handler =>
      cases machine_step hStep with
      | handler hHandler hStop =>
          have hSteps := hStop.steps
          obtain ⟨running, cleanupJoinable, rfl⟩ := hStop.frame
          simp only [remaining, unjoined, hHandler, Option.elim_some, Action.price, Action.allowance] at hSteps ⊢
          omega
  | signal =>
      cases machine_step hStep with
      | interrupted hHandler =>
          simp only [remaining, unjoined, hHandler, Option.elim_some, Option.elim_none, stopSteps, Action.price,
            Action.allowance]
          omega
      | ignored => simp [Action.price, Action.allowance]

/-- No thread can take a step. -/
def Stuck (s : DaemonThreads) : Prop :=
  ∀ action, action.price = 1 → s.step action = none

/-- The destructor and all threads have ended. -/
structure AllEnded (s : DaemonThreads) : Prop where
  main : s.mainPc = .finished
  handler : s.handler = none
  cleanup : s.cleanupPc = .exited
  workers : ∀ pid, s.workers pid = .exited

section Stuck

variable {s : DaemonThreads}

/-- Only the manager can keep a worker waiting, and who has it is about to give it back. -/
theorem Stuck.workers (h : s.Stuck) (hTracked : s.Tracked) (pid : Int32) : s.workers pid = .exited := by
  have hNone : ∀ other, s.workerStep other false = none := fun other => h (.worker other false) rfl
  have hStep := hNone pid
  cases hPc : s.workers pid with
  | exited => rfl
  | locking =>
      cases hMutex : s.managerMutex with
      | none => simp [workerStep, hPc, hMutex] at hStep
      | some owner =>
          obtain ⟨other, rfl, hProcessing⟩ := hTracked.manager owner hMutex
          have hOther := hNone other
          simp [workerStep, hProcessing] at hOther
  | testing | accepting | processing | sending => simp [workerStep, hPc] at hStep

theorem Owned.not_held (h : s.Owned) (hMain : mainHolds s.mainPc = false)
    (hCleanup : cleanupHolds s.cleanupPc = false) : s.sessionsMutex = none := by
  cases hMutex : s.sessionsMutex with
  | none => rfl
  | some owner =>
      cases owner with
      | main => simp [h.main.mp hMutex] at hMain
      | cleanup => simp [h.cleanup.mp hMutex] at hCleanup
      | worker pid => exact absurd hMutex (h.worker pid)

/-- The clean-up thread can only wait for the main thread. -/
theorem Stuck.cleanup (h : s.Stuck) (hOrdered : s.Ordered) : s.cleanupPc = .exited ∨ s.WaitsForMain := by
  have hStep : s.cleanupStep true = none := h (.cleanup true) rfl
  cases hPc : s.cleanupPc with
  | exited => exact .inl rfl
  | locking =>
      refine .inr ⟨hPc, ?_⟩
      have hBusy : s.sessionsMutex ≠ none := by
        intro hFree
        simp [cleanupStep, hPc, hFree] at hStep
      have hHolds : mainHolds s.mainPc = true := by
        by_contra hNot
        exact hBusy (hOrdered.owned.not_held (by simpa using hNot) (by simp [hPc, cleanupHolds]))
      exact hOrdered.owned.main.mpr hHolds
  | joiningWorker pid left =>
      have hExited := h.workers hOrdered.tracked pid
      simp [cleanupStep, hPc, hExited] at hStep
  | passing left => cases left <;> simp [cleanupStep, hPc] at hStep
  | testing | sleeping => simp [cleanupStep, hPc] at hStep

/-- Where the main thread is not in the handler, it goes on as long as it holds the mutex. -/
theorem Stuck.not_holds (h : s.Stuck) (hOrdered : s.Ordered) (hHandler : s.handler = none) :
    mainHolds s.mainPc = false := by
  have hStep : s.mainStep ⟨none, none⟩ = none := by
    have hMain := h (.main ⟨none, none⟩) rfl
    rwa [step, if_pos hHandler] at hMain
  cases hPc : s.mainPc with
  | joiningWorker pid left =>
      have hExited := h.workers hOrdered.tracked pid
      simp [mainStep, hPc, hExited] at hStep
  | cleaning left => cases left <;> simp [mainStep, hPc] at hStep
  | registering | responding => simp [mainStep, hPc] at hStep
  | entering | testing | accepting | locking | cleanupLocking | returned | destroying | finished => rfl

/-- A `stop` that waits waits for a clean-up thread that has not ended. -/
theorem stop_eq_none {pc : StopPc} (hStop : s.stop pc = none) :
    pc = .joining ∧ s.cleanupJoinable = true ∧ s.cleanupPc ≠ .exited := by
  cases pc with
  | storing => simp [stop] at hStop
  | joining =>
      simp only [stop] at hStop
      split_ifs at hStop with hJoinable hExited
      exact ⟨rfl, hJoinable, hExited⟩

/-- Without the handler, the main thread ends after the clean-up thread. -/
theorem Stuck.ended (h : s.Stuck) (hOrdered : s.Ordered) (hHandler : s.handler = none) : s.AllEnded := by
  have hHolds := h.not_holds hOrdered hHandler
  have hCleanup : s.cleanupPc = .exited := by
    apply (h.cleanup hOrdered).resolve_right
    rintro ⟨_, hOwner⟩
    rw [hOrdered.owned.main.mp hOwner] at hHolds
    cases hHolds
  have hFree := hOrdered.owned.not_held hHolds (by simp [hCleanup, cleanupHolds])
  have hStep : s.mainStep ⟨none, none⟩ = none := by
    have hMain := h (.main ⟨none, none⟩) rfl
    rwa [step, if_pos hHandler] at hMain
  refine ⟨?_, hHandler, hCleanup, h.workers hOrdered.tracked⟩
  cases hPc : s.mainPc with
  | finished => rfl
  | destroying pc =>
      have hStop : s.stop pc = none := by
        simpa [mainStep, hPc] using hStep
      exact absurd hCleanup (stop_eq_none hStop).2.2
  | registering | responding | cleaning | joiningWorker => simp [hPc, mainHolds, registering, clearing] at hHolds
  | entering | testing | accepting | returned => simp [mainStep, hPc] at hStep
  | locking | cleanupLocking => simp [mainStep, hPc, hFree] at hStep

/-- Where no thread can go on, all have ended, or the handler has met a registration. -/
theorem Stuck.ended_or_deadlocked (h : s.Stuck) (hOrdered : s.Ordered) :
    s.AllEnded ∨ s.RegistrationDeadlock := by
  cases hHandler : s.handler with
  | none => exact .inl (h.ended hOrdered hHandler)
  | some pc =>
      have hStop : s.stop pc = none := by
        have hStep := h .handler rfl
        simpa [step, handlerStep, hHandler] using hStep
      obtain ⟨rfl, hJoinable, hNotExited⟩ := stop_eq_none hStop
      have hWaits := (h.cleanup hOrdered).resolve_left hNotExited
      have hRegistering : registering s.mainPc = true := by
        by_contra hNot
        have hClear : s.Clear := fun _ hHolds => absurd hHolds hNot
        exact hOrdered.not_waitsForMain hClear (.inl hHandler) hJoinable hWaits
      exact .inr ⟨hHandler, hJoinable, hRegistering, hWaits⟩

end Stuck

/-- From any reachable state in which `running_` is false, and in any order of the threads' steps,
with any requests that still come and any signals: all threads together take at most the steps
that remained there, and two for each signal, and where none can take another step, all have
ended, unless the handler has met a registration. -/
theorem shutdown_terminates (root : Bool) {s t : DaemonThreads} (hReachable : machine.Reachable (init root) s)
    (hRunning : s.running = false) {actions : List Action} (hRun : machine.run s actions = some t) :
    (actions.map Action.price).sum ≤ s.remaining + (actions.map Action.allowance).sum ∧
      (t.Stuck → t.AllEnded ∨ t.RegistrationDeadlock) := by
  have hHolds : ∀ u, machine.Passes s actions u → u.Ordered ∧ u.running = false := by
    intro u hPasses
    refine hPasses.induction (P := fun u => u.Ordered ∧ u.running = false)
      ⟨ordered_of_reachable hReachable, hRunning⟩ ?_
    intro v action w hTakes hBefore
    have hStep := machine_step hTakes.step
    exact ⟨hStep.ordered hBefore.1, hStep.stays_stopped hBefore.2⟩
  refine ⟨?_, ?_⟩
  · have hPaid := ranked.run_le hRun hHolds
    omega
  · intro hStuck
    exact hStuck.ended_or_deadlocked (hHolds t (.of_run hRun)).1

/-- The signal comes at the start, and nothing else. -/
theorem shutdown_terminates_signal : ∃ s t : DaemonThreads, machine.run (init true) [.signal, .handler] = some s ∧
    machine.run s [.cleanup false, .handler, .main ⟨none, none⟩] = some t ∧ 3 ≤ s.remaining ∧
      (t.Stuck → t.AllEnded ∨ t.RegistrationDeadlock) := by
  obtain ⟨s, hBefore⟩ : ∃ s, machine.run (init true) [.signal, .handler] = some s := ⟨_, rfl⟩
  have hStopped : s.running = false ∧ ∃ t,
      machine.run s [.cleanup false, .handler, .main ⟨none, none⟩] = some t := by
    cases hBefore
    exact ⟨rfl, _, rfl⟩
  obtain ⟨hRunning, t, hRun⟩ := hStopped
  have hEnds := shutdown_terminates true ⟨_, hBefore⟩ hRunning hRun
  exact ⟨s, t, hBefore, hRun, hEnds.1, hEnds.2⟩

end HyCAN.DaemonThreads
