import HyCAN.Daemon.Shutdown
import Mathlib.Data.List.Basic

/-! What each step of the daemon's threads can do, and what holds between their
program points, the locks and the flags in every reachable state. -/
namespace HyCAN.DaemonThreads

open Transition

/-- The main thread holds the mutex in `handle_client_registration`. -/
def registering : MainPc → Bool
  | .registering _ | .responding => true
  | .entering | .testing | .accepting | .locking _ | .cleanupLocking | .cleaning _
  | .joiningWorker .. | .returned | .destroying _ | .finished => false

/-- The main thread has left its loop and not yet `cleanup_sessions`. -/
def cleaningUp : MainPc → Bool
  | .cleanupLocking | .cleaning _ | .joiningWorker .. => true
  | _ => false

/-- The main thread holds the mutex in `cleanup_sessions`. -/
def clearing : MainPc → Bool
  | .cleaning _ | .joiningWorker .. => true
  | _ => false

def mainHolds (pc : MainPc) : Bool :=
  registering pc || clearing pc

def cleanupHolds : CleanupPc → Bool
  | .passing _ | .joiningWorker .. => true
  | _ => false

/-- The sessions whose workers may still run. -/
def unjoined (s : DaemonThreads) : List Int32 :=
  match s.mainPc with
  | .cleaning left => left
  | .joiningWorker pid left => pid :: left
  | _ => s.sessions

/-- The main thread is in `Daemon::stop`, after its store. -/
def Stopping (s : DaemonThreads) : Prop :=
  s.handler = some .joining ∨ s.mainPc = .destroying .joining

/-- The paths through one step of `Daemon::stop`. -/
inductive StopStep (s : DaemonThreads) : StopPc → Option StopPc → DaemonThreads → Prop where
  | stored : StopStep s .storing (some .joining) { s with running := false }
  | joined (hJoinable : s.cleanupJoinable = true) (hExited : s.cleanupPc = .exited) :
      StopStep s .joining none { s with cleanupJoinable := false }
  | notJoinable (hJoinable : s.cleanupJoinable = false) : StopStep s .joining none s

/-- The main thread's own steps. -/
inductive MainStep (s : DaemonThreads) : DaemonThreads → Prop where
  | entered (hPc : s.mainPc = .entering) (hRoot : s.root = true) :
      MainStep s { s with mainPc := .testing }
  | notRoot (hPc : s.mainPc = .entering) (hRoot : s.root = false) :
      MainStep s { s with mainPc := .returned }
  | loops (hPc : s.mainPc = .testing) (hRunning : s.running = true) :
      MainStep s { s with mainPc := .accepting }
  | leavesLoop (hPc : s.mainPc = .testing) (hRunning : s.running = false) :
      MainStep s { s with mainPc := .cleanupLocking }
  | nothing (hPc : s.mainPc = .accepting) : MainStep s { s with mainPc := .testing }
  | received (pid : Int32) (hPc : s.mainPc = .accepting) :
      MainStep s { s with mainPc := .locking pid }
  | locked {pid : Int32} (hPc : s.mainPc = .locking pid) (hFree : s.sessionsMutex = none) :
      MainStep s { s with mainPc := .registering pid, sessionsMutex := some .main }
  | registered {pid : Int32} (created : Option Bool) (hPc : s.mainPc = .registering pid) :
      MainStep s { s.register pid created with mainPc := .responding }
  | responded (hPc : s.mainPc = .responding) :
      MainStep s { s with mainPc := .testing, sessionsMutex := none }
  | cleanupLocked (hPc : s.mainPc = .cleanupLocking) (hFree : s.sessionsMutex = none) :
      MainStep s { s with mainPc := .cleaning s.sessions, sessionsMutex := some .main }
  | cleared (hPc : s.mainPc = .cleaning []) :
      MainStep s { s with mainPc := .returned, sessionsMutex := none, sessions := [] }
  | told {pid : Int32} {left : List Int32} (hPc : s.mainPc = .cleaning (pid :: left)) :
      MainStep s { s with
        mainPc := .joiningWorker pid left
        active := Function.update s.active pid false }
  | joined {pid : Int32} {left : List Int32} (hPc : s.mainPc = .joiningWorker pid left)
      (hExited : s.workers pid = .exited) : MainStep s { s with mainPc := .cleaning left }
  | returns (hPc : s.mainPc = .returned) : MainStep s { s with mainPc := .destroying .storing }
  | destroys {pc : StopPc} {next : Option StopPc} {u : DaemonThreads}
      (hPc : s.mainPc = .destroying pc) (hStop : StopStep s pc next u) :
      MainStep s { u with mainPc := next.elim .finished .destroying }

inductive CleanupStep (s : DaemonThreads) : DaemonThreads → Prop where
  | loops (hPc : s.cleanupPc = .testing) (hRunning : s.running = true) :
      CleanupStep s { s with cleanupPc := .sleeping }
  | exits (hPc : s.cleanupPc = .testing) (hRunning : s.running = false) :
      CleanupStep s { s with cleanupPc := .exited }
  | wakes (hPc : s.cleanupPc = .sleeping) : CleanupStep s { s with cleanupPc := .locking }
  | locked (hPc : s.cleanupPc = .locking) (hFree : s.sessionsMutex = none) :
      CleanupStep s { s with cleanupPc := .passing s.sessions, sessionsMutex := some .cleanup }
  | unlocked (hPc : s.cleanupPc = .passing []) :
      CleanupStep s { s with cleanupPc := .testing, sessionsMutex := none }
  | told {pid : Int32} {left : List Int32} (hPc : s.cleanupPc = .passing (pid :: left)) :
      CleanupStep s { s with
        cleanupPc := .joiningWorker pid left
        active := Function.update s.active pid false }
  | kept {pid : Int32} {left : List Int32} (hPc : s.cleanupPc = .passing (pid :: left)) :
      CleanupStep s { s with cleanupPc := .passing left }
  | joined {pid : Int32} {left : List Int32} (hPc : s.cleanupPc = .joiningWorker pid left)
      (hExited : s.workers pid = .exited) :
      CleanupStep s { s with cleanupPc := .passing left, sessions := s.sessions.erase pid }

/-- A worker that has exited takes no step. Only its lock and its unlock touch more
than its own program point. -/
inductive WorkerStep (s : DaemonThreads) (pid : Int32) : DaemonThreads → Prop where
  | moved (pc : WorkerPc) (hBefore : s.workers pid ≠ .exited) (hIdle : s.workers pid ≠ .processing)
      (hPc : pc ≠ .processing) : WorkerStep s pid (s.setWorker pid pc)
  | locked (hPc : s.workers pid = .locking) (hFree : s.managerMutex = none) :
      WorkerStep s pid { s.setWorker pid .processing with managerMutex := some (.worker pid) }
  | unlocked (hPc : s.workers pid = .processing) :
      WorkerStep s pid { s.setWorker pid .sending with managerMutex := none }

inductive Step (s : DaemonThreads) : Action → DaemonThreads → Prop where
  | interrupted (hHandler : s.handler = none) (hSet : s.mainPc.instanceSet = true) :
      Step s .signal { s with handler := some .storing }
  | ignored (hHandler : s.handler = none) (hSet : s.mainPc.instanceSet = false) : Step s .signal s
  | handler {pc : StopPc} {next : Option StopPc} {u : DaemonThreads} (hHandler : s.handler = some pc)
      (hStop : StopStep s pc next u) : Step s .handler { u with handler := next }
  | main {input : MainInput} {t : DaemonThreads} (hHandler : s.handler = none) (hMain : MainStep s t) :
      Step s (.main input) t
  | cleanup {expired : Bool} {t : DaemonThreads} (hCleanup : CleanupStep s t) :
      Step s (.cleanup expired) t
  | worker {pid : Int32} {request : Bool} {t : DaemonThreads} (hWorker : WorkerStep s pid t) :
      Step s (.worker pid request) t

theorem stop_cases {s u : DaemonThreads} {pc : StopPc} {next : Option StopPc}
    (h : s.stop pc = some (next, u)) : StopStep s pc next u := by
  cases pc with
  | storing =>
      simp only [stop, Option.some.injEq, Prod.mk.injEq] at h
      obtain ⟨rfl, rfl⟩ := h
      exact .stored
  | joining =>
      simp only [stop] at h
      split_ifs at h with hJoinable hExited
      · simp only [Option.some.injEq, Prod.mk.injEq] at h
        obtain ⟨rfl, rfl⟩ := h
        exact .joined hJoinable hExited
      · simp only [Option.some.injEq, Prod.mk.injEq] at h
        obtain ⟨rfl, rfl⟩ := h
        exact .notJoinable (by simpa using hJoinable)

theorem mainStep_cases {s t : DaemonThreads} {input : MainInput} (h : s.mainStep input = some t) :
    MainStep s t := by
  unfold mainStep at h
  split at h
  case h_1 hPc =>
      rw [Option.some.injEq] at h
      cases hRoot : s.root with
      | true => exact h ▸ by simpa [hRoot] using MainStep.entered hPc hRoot
      | false => exact h ▸ by simpa [hRoot] using MainStep.notRoot hPc hRoot
  case h_2 hPc =>
      rw [Option.some.injEq] at h
      cases hRunning : s.running with
      | true => exact h ▸ by simpa [hRunning] using MainStep.loops hPc hRunning
      | false => exact h ▸ by simpa [hRunning] using MainStep.leavesLoop hPc hRunning
  case h_3 hPc =>
      split at h
      · exact Option.some.inj h ▸ .nothing hPc
      · exact Option.some.inj h ▸ .received _ hPc
  case h_4 hPc =>
      split_ifs at h with hFree
      exact Option.some.inj h ▸ .locked hPc hFree
  case h_5 hPc => exact Option.some.inj h ▸ .registered _ hPc
  case h_6 hPc => exact Option.some.inj h ▸ .responded hPc
  case h_7 hPc =>
      split_ifs at h with hFree
      exact Option.some.inj h ▸ .cleanupLocked hPc hFree
  case h_8 hPc => exact Option.some.inj h ▸ .cleared hPc
  case h_9 hPc => exact Option.some.inj h ▸ .told hPc
  case h_10 hPc =>
      split_ifs at h with hExited
      exact Option.some.inj h ▸ .joined hPc hExited
  case h_11 hPc => exact Option.some.inj h ▸ .returns hPc
  case h_12 hPc =>
      obtain ⟨⟨next, u⟩, hStop, rfl⟩ := Option.map_eq_some_iff.mp h
      exact .destroys hPc (stop_cases hStop)
  case h_13 => cases h

theorem cleanupStep_cases {s t : DaemonThreads} {expired : Bool}
    (h : s.cleanupStep expired = some t) : CleanupStep s t := by
  unfold cleanupStep at h
  split at h
  case h_1 hPc =>
      rw [Option.some.injEq] at h
      cases hRunning : s.running with
      | true => exact h ▸ by simpa [hRunning] using CleanupStep.loops hPc hRunning
      | false => exact h ▸ by simpa [hRunning] using CleanupStep.exits hPc hRunning
  case h_2 hPc => exact Option.some.inj h ▸ .wakes hPc
  case h_3 hPc =>
      split_ifs at h with hFree
      exact Option.some.inj h ▸ .locked hPc hFree
  case h_4 hPc => exact Option.some.inj h ▸ .unlocked hPc
  case h_5 hPc =>
      split_ifs at h with hExpired
      · exact Option.some.inj h ▸ .told hPc
      · exact Option.some.inj h ▸ .kept hPc
  case h_6 hPc =>
      split_ifs at h with hExited
      exact Option.some.inj h ▸ .joined hPc hExited
  case h_7 => cases h

theorem workerStep_cases {s t : DaemonThreads} {pid : Int32} {request : Bool}
    (h : s.workerStep pid request = some t) : WorkerStep s pid t := by
  unfold workerStep at h
  split at h
  case h_1 hPc =>
      refine Option.some.inj h ▸ .moved _ (by simp [hPc]) (by simp [hPc]) ?_
      split_ifs <;> simp
  case h_2 hPc =>
      refine Option.some.inj h ▸ .moved _ (by simp [hPc]) (by simp [hPc]) ?_
      split_ifs <;> simp
  case h_3 hPc =>
      split_ifs at h with hFree
      exact Option.some.inj h ▸ .locked hPc hFree
  case h_4 hPc => exact Option.some.inj h ▸ .unlocked hPc
  case h_5 hPc =>
      exact Option.some.inj h ▸ .moved _ (by simp [hPc]) (by simp [hPc]) (by simp)
  case h_6 => cases h

theorem machine_step {s t : DaemonThreads} {action : Action} (h : machine.step s action = some t) :
    Step s action t := by
  change s.step action = some t at h
  cases action with
  | signal =>
      simp only [step, signal] at h
      split at h
      · cases h
      · next hHandler =>
          split_ifs at h with hSet
          · exact Option.some.inj h ▸ .interrupted hHandler hSet
          · exact Option.some.inj h ▸ .ignored hHandler (by simpa using hSet)
  | handler =>
      simp only [step, handlerStep] at h
      split at h
      · cases h
      · next hHandler =>
          obtain ⟨⟨next, u⟩, hStop, rfl⟩ := Option.map_eq_some_iff.mp h
          exact .handler hHandler (stop_cases hStop)
  | main input =>
      simp only [step] at h
      split_ifs at h with hHandler
      exact .main hHandler (mainStep_cases h)
  | cleanup expired => exact .cleanup (cleanupStep_cases h)
  | worker pid request => exact .worker (workerStep_cases h)

theorem StopStep.frame {s u : DaemonThreads} {pc : StopPc} {next : Option StopPc}
    (hStep : StopStep s pc next u) :
    ∃ running cleanupJoinable, u = { s with running, cleanupJoinable } := by
  cases hStep with
  | stored => exact ⟨false, s.cleanupJoinable, rfl⟩
  | joined => exact ⟨s.running, false, rfl⟩
  | notJoinable => exact ⟨s.running, s.cleanupJoinable, rfl⟩

theorem register_frame (s : DaemonThreads) (pid : Int32) (created : Option Bool) :
    ∃ sessions active workers, s.register pid created = { s with sessions, active, workers } := by
  unfold register
  split_ifs
  · exact ⟨s.sessions, s.active, s.workers, rfl⟩
  · cases created with
    | none => exact ⟨s.sessions, s.active, s.workers, rfl⟩
    | some thread => exact ⟨_, _, _, rfl⟩

/-- Who holds `sessions_mutex_` is told by the program points. -/
structure Owned (s : DaemonThreads) : Prop where
  main : s.sessionsMutex = some .main ↔ mainHolds s.mainPc = true
  cleanup : s.sessionsMutex = some .cleanup ↔ cleanupHolds s.cleanupPc = true
  worker : ∀ pid, s.sessionsMutex ≠ some (.worker pid)

theorem MainStep.owned {s t : DaemonThreads} (hStep : MainStep s t) (h : s.Owned) : t.Owned := by
  cases hStep with
  | entered hPc | notRoot hPc | loops hPc | leavesLoop hPc | nothing hPc | received _ hPc
  | told hPc | joined hPc | returns hPc =>
      exact ⟨by simpa [hPc, mainHolds, registering, clearing] using h.main, h.cleanup, h.worker⟩
  | @registered pid created hPc =>
      obtain ⟨sessions, active, workers, hSame⟩ := s.register_frame pid created
      rw [hSame]
      exact ⟨by simpa [hPc, mainHolds, registering, clearing] using h.main, h.cleanup, h.worker⟩
  | locked hPc hFree | cleanupLocked hPc hFree =>
      have hCleanup := h.cleanup
      rw [hFree] at hCleanup
      exact ⟨by simp [mainHolds, registering, clearing], by simpa using hCleanup, by simp⟩
  | responded hPc | cleared hPc =>
      have hOwner : s.sessionsMutex = some .main := h.main.mpr (by simp [hPc, mainHolds, registering, clearing])
      have hCleanup := h.cleanup
      rw [hOwner] at hCleanup
      exact ⟨by simp [mainHolds, registering, clearing], by simpa using hCleanup, by simp⟩
  | @destroys _ next u hPc hStop =>
      obtain ⟨running, cleanupJoinable, rfl⟩ := hStop.frame
      refine ⟨?_, h.cleanup, h.worker⟩
      have hMain := h.main
      rw [hPc] at hMain
      cases next <;> simpa [mainHolds, registering, clearing] using hMain

theorem CleanupStep.owned {s t : DaemonThreads} (hStep : CleanupStep s t) (h : s.Owned) :
    t.Owned := by
  cases hStep with
  | loops hPc | exits hPc | wakes hPc | told hPc | kept hPc | joined hPc =>
      exact ⟨h.main, by simpa [hPc, cleanupHolds] using h.cleanup, h.worker⟩
  | locked hPc hFree =>
      have hMain := h.main
      rw [hFree] at hMain
      exact ⟨by simpa using hMain, by simp [cleanupHolds], by simp⟩
  | unlocked hPc =>
      have hOwner : s.sessionsMutex = some .cleanup := h.cleanup.mpr (by simp [hPc, cleanupHolds])
      have hMain := h.main
      rw [hOwner] at hMain
      exact ⟨by simpa using hMain, by simp [cleanupHolds], by simp⟩

theorem Step.owned {s t : DaemonThreads} {action : Action} (hStep : Step s action t)
    (h : s.Owned) : t.Owned := by
  cases hStep with
  | interrupted => exact ⟨h.main, h.cleanup, h.worker⟩
  | ignored => exact h
  | handler _ hStop =>
      obtain ⟨running, cleanupJoinable, rfl⟩ := hStop.frame
      exact ⟨h.main, h.cleanup, h.worker⟩
  | main _ hMain => exact hMain.owned h
  | cleanup hCleanup => exact hCleanup.owned h
  | worker hWorker => cases hWorker <;> exact ⟨h.main, h.cleanup, h.worker⟩

/-- The manager is used by workers only, and a worker is gone before its session is. -/
structure Tracked (s : DaemonThreads) : Prop where
  manager : ∀ t, s.managerMutex = some t → ∃ pid, t = .worker pid ∧ s.workers pid = .processing
  unjoined : ∀ pid, s.workers pid ≠ .exited → pid ∈ s.unjoined

theorem Tracked.register {s : DaemonThreads} (h : s.Tracked) {pid : Int32}
    (hPc : s.mainPc = .registering pid) (created : Option Bool) :
    ({ s.register pid created with mainPc := .responding } : DaemonThreads).Tracked := by
  have hUnjoined : ∀ other, s.workers other ≠ .exited → other ∈ s.sessions := by
    simpa [DaemonThreads.unjoined, hPc] using h.unjoined
  unfold DaemonThreads.register
  split_ifs with hMem
  · exact ⟨h.manager, hUnjoined⟩
  · have hGone : s.workers pid = .exited := by
      by_contra hRunning
      exact hMem (hUnjoined pid hRunning)
    cases created with
    | none => exact ⟨h.manager, hUnjoined⟩
    | some thread =>
        refine ⟨?_, ?_⟩
        · intro t hOwner
          obtain ⟨other, hOther, hProcessing⟩ := h.manager t hOwner
          have hNe : other ≠ pid := by
            rintro rfl
            simp [hGone] at hProcessing
          exact ⟨other, hOther, by simpa [hNe] using hProcessing⟩
        · intro other hRunning
          change other ∈ s.sessions ++ [pid]
          rcases eq_or_ne other pid with rfl | hNe
          · simp
          · exact List.mem_append_left _ (hUnjoined other (by simpa [hNe] using hRunning))

theorem MainStep.tracked {s t : DaemonThreads} (hStep : MainStep s t) (h : s.Tracked) :
    t.Tracked := by
  have hUnjoined := h.unjoined
  cases hStep with
  | entered hPc | notRoot hPc | loops hPc | leavesLoop hPc | nothing hPc | received _ hPc
  | locked hPc | responded hPc | cleanupLocked hPc | cleared hPc | told hPc | returns hPc =>
      exact ⟨h.manager, by simpa [DaemonThreads.unjoined, hPc] using hUnjoined⟩
  | registered created hPc => exact h.register hPc created
  | joined hPc hExited =>
      refine ⟨h.manager, ?_⟩
      intro pid hRunning
      simp only [DaemonThreads.unjoined, hPc, List.mem_cons] at hUnjoined
      rcases hUnjoined pid hRunning with rfl | hLeft
      · exact absurd hExited hRunning
      · exact hLeft
  | @destroys _ next u hPc hStop =>
      obtain ⟨running, cleanupJoinable, rfl⟩ := hStop.frame
      refine ⟨h.manager, ?_⟩
      cases next <;> simpa [DaemonThreads.unjoined, hPc] using hUnjoined

theorem CleanupStep.tracked {s t : DaemonThreads} (hStep : CleanupStep s t) (h : s.Tracked) :
    t.Tracked := by
  cases hStep with
  | loops | exits | wakes | locked | unlocked | told | kept => exact ⟨h.manager, h.unjoined⟩
  | @joined gone left hPc hExited =>
      refine ⟨h.manager, ?_⟩
      intro pid hRunning
      have hNe : pid ≠ gone := by
        rintro rfl
        exact hRunning hExited
      have hMem := h.unjoined pid hRunning
      cases hMain : s.mainPc <;>
        simpa [DaemonThreads.unjoined, hMain, List.mem_erase_of_ne hNe] using hMem

theorem WorkerStep.tracked {s t : DaemonThreads} {pid : Int32} (hStep : WorkerStep s pid t)
    (h : s.Tracked) : t.Tracked := by
  -- a worker that moves has not exited, so its session is known whatever its new point
  have hUnjoined : ∀ pc other, s.workers pid ≠ .exited →
      Function.update s.workers pid pc other ≠ .exited → other ∈ s.unjoined := by
    intro pc other hBefore hRunning
    rcases eq_or_ne other pid with rfl | hNe
    · exact h.unjoined other hBefore
    · exact h.unjoined other (by simpa [hNe] using hRunning)
  cases hStep with
  | moved pc hBefore hIdle hPc =>
      refine ⟨?_, fun other => hUnjoined pc other hBefore⟩
      intro t hOwner
      obtain ⟨other, hOther, hProcessing⟩ := h.manager t hOwner
      have hNe : other ≠ pid := by
        rintro rfl
        exact hIdle hProcessing
      exact ⟨other, hOther, by simpa [setWorker, hNe] using hProcessing⟩
  | locked hPc hFree =>
      refine ⟨?_, fun other => hUnjoined _ other (by simp [hPc])⟩
      intro t hOwner
      exact ⟨pid, (Option.some.inj hOwner).symm, by simp [setWorker]⟩
  | unlocked hPc => exact ⟨by simp, fun other => hUnjoined _ other (by simp [hPc])⟩

theorem Step.tracked {s t : DaemonThreads} {action : Action} (hStep : Step s action t)
    (h : s.Tracked) : t.Tracked := by
  cases hStep with
  | interrupted => exact ⟨h.manager, h.unjoined⟩
  | ignored => exact h
  | handler _ hStop =>
      obtain ⟨running, cleanupJoinable, rfl⟩ := hStop.frame
      exact ⟨h.manager, h.unjoined⟩
  | main _ hMain => exact hMain.tracked h
  | cleanup hCleanup => exact hCleanup.tracked h
  | worker hWorker => exact hWorker.tracked h

/-- What is left of the cleanup thread once `running_` is false. -/
structure Stopped (s : DaemonThreads) : Prop where
  exited : s.cleanupJoinable = false → s.cleanupPc = .exited
  stopping : s.Stopping → s.running = false
  joined : s.running = false → ¬s.Stopping → s.cleanupJoinable = false
  cleaning : cleaningUp s.mainPc = true → s.cleanupJoinable = false

/-- Where neither the flags nor the places in `stop` change. -/
theorem Stopped.of_eq {s t : DaemonThreads} (h : s.Stopped) (hRunning : t.running = s.running)
    (hJoinable : t.cleanupJoinable = s.cleanupJoinable) (hStopping : t.Stopping ↔ s.Stopping)
    (hExited : s.cleanupPc = .exited → t.cleanupPc = .exited)
    (hCleaning : cleaningUp t.mainPc = true → s.cleanupJoinable = false) : t.Stopped := by
  refine ⟨?_, ?_, ?_, ?_⟩
  · rw [hJoinable]
    exact fun hGone => hExited (h.exited hGone)
  · rw [hRunning, hStopping]
    exact h.stopping
  · rw [hRunning, hStopping, hJoinable]
    exact h.joined
  · rw [hJoinable]
    exact hCleaning

theorem MainStep.stopped {s t : DaemonThreads} (hStep : MainStep s t) (h : s.Stopped)
    (hHandler : s.handler = none) : t.Stopped := by
  have hCleaning := h.cleaning
  cases hStep with
  | entered hPc | notRoot hPc | loops hPc | nothing hPc | received _ hPc | locked hPc
  | responded hPc | cleared hPc | returns hPc =>
      exact h.of_eq rfl rfl (by simp [Stopping, hPc]) id (by simp [cleaningUp])
  | @registered pid created hPc =>
      obtain ⟨sessions, active, workers, hSame⟩ := s.register_frame pid created
      rw [hSame]
      exact h.of_eq rfl rfl (by simp [Stopping, hPc]) id (by simp [cleaningUp])
  | cleanupLocked hPc | told hPc | joined hPc =>
      refine h.of_eq rfl rfl (by simp [Stopping, hPc]) id fun _ => hCleaning ?_
      simp [cleaningUp, hPc]
  | leavesLoop hPc hRunning =>
      refine h.of_eq rfl rfl (by simp [Stopping, hPc]) id fun _ => h.joined hRunning ?_
      simp [Stopping, hHandler, hPc]
  | destroys hPc hStop =>
      cases hStop with
      | stored => exact ⟨h.exited, fun _ => rfl, by simp [Stopping], by simp [cleaningUp]⟩
      | joined _ hExited =>
          exact ⟨fun _ => hExited, by simp [Stopping, hHandler], fun _ _ => rfl, by simp [cleaningUp]⟩
      | notJoinable hJoinable =>
          exact ⟨h.exited, by simp [Stopping, hHandler], fun _ _ => hJoinable, by simp [cleaningUp]⟩

theorem CleanupStep.stopped {s t : DaemonThreads} (hStep : CleanupStep s t) (h : s.Stopped) :
    t.Stopped := by
  cases hStep with
  | loops hPc | exits hPc | wakes hPc | locked hPc | unlocked hPc | told hPc | kept hPc | joined hPc =>
      exact h.of_eq rfl rfl Iff.rfl (by simp [hPc]) h.cleaning

theorem Step.stopped {s t : DaemonThreads} {action : Action} (hStep : Step s action t)
    (h : s.Stopped) : t.Stopped := by
  cases hStep with
  | interrupted hHandler =>
      exact h.of_eq rfl rfl (by simp [Stopping, hHandler]) id h.cleaning
  | ignored => exact h
  | handler hHandler hStop =>
      cases hStop with
      | stored => exact ⟨h.exited, fun _ => rfl, by simp [Stopping], h.cleaning⟩
      | joined _ hExited =>
          have hRunning : s.running = false := h.stopping (.inl hHandler)
          exact ⟨fun _ => hExited, fun _ => hRunning, fun _ _ => rfl, fun _ => rfl⟩
      | notJoinable hJoinable =>
          have hRunning : s.running = false := h.stopping (.inl hHandler)
          exact ⟨h.exited, fun _ => hRunning, fun _ _ => hJoinable, h.cleaning⟩
  | main hHandler hMain => exact hMain.stopped h hHandler
  | cleanup hCleanup => exact hCleanup.stopped h
  | worker hWorker =>
      cases hWorker <;> exact h.of_eq rfl rfl Iff.rfl id h.cleaning

/-- What holds in every reachable state. -/
structure Ordered (s : DaemonThreads) : Prop where
  owned : s.Owned
  tracked : s.Tracked
  stopped : s.Stopped

theorem Ordered.init (root : Bool) : (init root).Ordered where
  owned := ⟨by simp [DaemonThreads.init, mainHolds, registering, clearing], by simp [DaemonThreads.init, cleanupHolds],
    by simp [DaemonThreads.init]⟩
  tracked := ⟨by simp [DaemonThreads.init], by simp [DaemonThreads.init]⟩
  stopped := ⟨by simp [DaemonThreads.init], by simp [DaemonThreads.init, Stopping],
    by simp [DaemonThreads.init], by simp [DaemonThreads.init, cleaningUp]⟩

theorem Step.ordered {s t : DaemonThreads} {action : Action} (hStep : Step s action t)
    (h : s.Ordered) : t.Ordered :=
  ⟨hStep.owned h.owned, hStep.tracked h.tracked, hStep.stopped h.stopped⟩

theorem ordered_of_reachable {root : Bool} {s : DaemonThreads}
    (h : machine.Reachable (init root) s) : s.Ordered :=
  h.invariant (Ordered.init root) fun _ _ _ hOrdered hStep => (machine_step hStep).ordered hOrdered

end HyCAN.DaemonThreads
