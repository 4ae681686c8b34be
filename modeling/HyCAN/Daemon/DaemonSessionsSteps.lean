import HyCAN.Daemon.DaemonSessions

/-! What each step of the daemon's threads can do with the sessions and their sockets. -/
namespace HyCAN.DaemonSessions

open Transition

/-- The steps of the main thread that change nothing but its program point. -/
inductive RunMove (s : DaemonSessions) : RunPc → Prop where
  | refused (hPc : s.runPc = .creatingMain) : RunMove s .finished
  | notStarted (hPc : s.runPc = .startingCleanup) : RunMove s .droppingMain
  | entered (hPc : s.runPc = .entering) : RunMove s .testing
  | notRoot (hPc : s.runPc = .entering) : RunMove s .returned
  | loops (hPc : s.runPc = .testing) : RunMove s .accepting
  | leaves (hPc : s.runPc = .testing) : RunMove s .cleanupLocking
  | requested (pid : Int32) (hPc : s.runPc = .receiving) : RunMove s (.locking pid)
  | invalid (hPc : s.runPc = .receiving) : RunMove s .closing
  | known {pid : Int32} (hPc : s.runPc = .looking pid) : RunMove s .responding
  | unknown {pid : Int32} (hPc : s.runPc = .looking pid) (hNone : s.stored pid = none) :
      RunMove s (.creating pid)
  | noSocket {pid : Int32} {k : Nat} (hPc : s.runPc = .creatingSocket pid k) : RunMove s (.dropping k)
  | notInserted {pid : Int32} {k : Nat} (hPc : s.runPc = .storing pid k) : RunMove s (.dropping k)
  | allJoined (hPc : s.runPc = .cleaning []) : RunMove s .clearing
  | returns (hPc : s.runPc = .returned) : RunMove s (.stopping .storing)
  | emptied (hPc : s.runPc = .destroyingSessions) : RunMove s .droppingMain

/-- Those that release the mutex as well. -/
inductive RunUnlock (s : DaemonSessions) : RunPc → Prop where
  | notCreated {pid : Int32} (hPc : s.runPc = .creating pid) : RunUnlock s .closing
  | notStarted {pid : Int32} {k : Nat} (hPc : s.runPc = .starting pid k) : RunUnlock s .closing
  | responded (hPc : s.runPc = .responding) : RunUnlock s .closing
  | cleared (hPc : s.runPc = .clearing) (hEmpty : s.clientSessions.keys = []) : RunUnlock s .returned

/-- There is no worker to join, or it has left. -/
inductive JoinStep (s : DaemonSessions) (k : Nat) (session : SessionObject) : DaemonSessions → Prop where
  | nothing (hThread : session.workerThread ≠ .joinable) : JoinStep s k session s
  | joined (hThread : session.workerThread = .joinable) (hLeft : s.workers k = some .left) :
      JoinStep s k session (s.setSession k { session with workerThread := .joined })

/-- The main thread's own steps. -/
inductive RunStep (s : DaemonSessions) : DaemonSessions → Prop where
  | moved {pc : RunPc} (hMove : RunMove s pc) : RunStep s { s with runPc := pc }
  | unlocked {pc : RunPc} (hUnlock : RunUnlock s pc) :
      RunStep s { s with runPc := pc, sessionsMutex := none }
  | locked {pid : Int32} (hPc : s.runPc = .locking pid) (hFree : s.sessionsMutex = none) :
      RunStep s { s with runPc := .looking pid, sessionsMutex := some .main }
  | cleanupLocked {order : List Int32} (hPc : s.runPc = .cleanupLocking)
      (hFree : s.sessionsMutex = none) (hOrder : order.Perm s.clientSessions.keys) :
      RunStep s { s with runPc := .cleaning order, sessionsMutex := some .main }
  | mainCreated (hPc : s.runPc = .creatingMain) :
      RunStep s { s with
        sockets := s.sockets.put .main (.ofName (ascii "daemon") .server)
        runPc := .initializingMain }
  | mainInitialized {object : UnixSocket} {outcome : InitializeOutcome} {done : Bool}
      {sockets : UnixSockets SocketPlace} (hPc : s.runPc = .initializingMain)
      (hObject : s.sockets.objects .main = some object)
      (hInitialize : s.sockets.initializeSocket .main object outcome = some (done, sockets)) :
      RunStep s { s with
        sockets := sockets
        runPc := if done then .startingCleanup else .droppingMain }
  | cleanupStarted (hPc : s.runPc = .startingCleanup) :
      RunStep s { s with cleanupPc := some .testing, cleanupJoinable := true, runPc := .entering }
  | mainDropped (hPc : s.runPc = .droppingMain) :
      RunStep s { s with sockets := s.sockets.reset .main, runPc := .finished }
  | accepted {object : UnixSocket} {outcome : Option Nat} {came : Bool}
      {sockets : UnixSockets SocketPlace} (hPc : s.runPc = .accepting)
      (hObject : s.sockets.objects .main = some object)
      (hAccept : s.sockets.accept object .registration outcome = some (came, sockets)) :
      RunStep s { s with sockets := sockets, runPc := if came then .receiving else .testing }
  | closed (hPc : s.runPc = .closing) :
      RunStep s { s with sockets := s.sockets.reset .registration, runPc := .testing }
  | created {pid : Int32} (hPc : s.runPc = .creating pid) :
      RunStep s { s.setSession s.nextSession ⟨pid, Daemon.generateClientChannelName pid, .null, true⟩ with
        nextSession := s.nextSession + 1
        runPc := .creatingSocket pid s.nextSession }
  | socketCreated {pid : Int32} {k : Nat} {session : SessionObject}
      (hPc : s.runPc = .creatingSocket pid k) (hSession : s.sessions k = some session) :
      RunStep s { s with
        sockets := s.sockets.put (.session k) (.ofName session.channelName .server)
        runPc := .initializing pid k }
  | socketInitialized {pid : Int32} {k : Nat} {object : UnixSocket} {outcome : InitializeOutcome}
      {done : Bool} {sockets : UnixSockets SocketPlace} (hPc : s.runPc = .initializing pid k)
      (hObject : s.sockets.objects (.session k) = some object)
      (hInitialize : s.sockets.initializeSocket (.session k) object outcome = some (done, sockets)) :
      RunStep s { s with
        sockets := sockets
        runPc := if done then .storing pid k else .dropping k }
  | inserted {pid : Int32} {k : Nat} (hPc : s.runPc = .storing pid k) :
      RunStep s { s with clientSessions := s.clientSessions.insert pid k, runPc := .starting pid k }
  | dropped {k : Nat} (hPc : s.runPc = .dropping k) :
      RunStep s { s.dropSession k with runPc := .closing, sessionsMutex := none }
  | started {pid : Int32} {k : Nat} (hPc : s.runPc = .starting pid k) :
      RunStep s { s.setWorker k .testing with runPc := .assigning pid k }
  | assigned {pid : Int32} {k : Nat} {session : SessionObject} (hPc : s.runPc = .assigning pid k)
      (hSession : s.sessions k = some session) :
      RunStep s { s.setSession k { session with workerThread := .joinable } with runPc := .responding }
  | told {pid : Int32} {left : List Int32} {k : Nat} {session : SessionObject}
      (hPc : s.runPc = .cleaning (pid :: left)) (hStored : s.stored pid = some k)
      (hSession : s.sessions k = some session) :
      RunStep s { s.tell k session with runPc := .joining pid left }
  | joined {pid : Int32} {left : List Int32} {k : Nat} {session : SessionObject} {u : DaemonSessions}
      (hPc : s.runPc = .joining pid left) (hStored : s.stored pid = some k)
      (hSession : s.sessions k = some session) (hJoin : JoinStep s k session u) :
      RunStep s { u with runPc := .cleaning left }
  | erased {pid : Int32} {k : Nat} (hPc : s.runPc = .clearing ∨ s.runPc = .destroyingSessions)
      (hStored : s.stored pid = some k) : RunStep s (s.eraseSession pid k)
  | stopped {next : RunPc} {stop : StopPc} (running cleanupJoinable : Bool)
      (hPc : s.runPc = .stopping stop)
      (hNext : next = .destroyingSessions ∨ ∃ again, next = .stopping again) :
      RunStep s { s with running := running, cleanupJoinable := cleanupJoinable, runPc := next }

inductive SweepMove (s : DaemonSessions) : SweepPc → Prop where
  | loops (hPc : s.cleanupPc = some .testing) : SweepMove s .sleeping
  | exits (hPc : s.cleanupPc = some .testing) : SweepMove s .exited
  | wakes (hPc : s.cleanupPc = some .sleeping) : SweepMove s .locking
  | kept {pid : Int32} {left : List Int32} (hPc : s.cleanupPc = some (.passing (pid :: left))) :
      SweepMove s (.passing left)

inductive SweepStep (s : DaemonSessions) : DaemonSessions → Prop where
  | moved {pc : SweepPc} (hMove : SweepMove s pc) : SweepStep s { s with cleanupPc := some pc }
  | locked {order : List Int32} (hPc : s.cleanupPc = some .locking) (hFree : s.sessionsMutex = none) :
      SweepStep s { s with cleanupPc := some (.passing order), sessionsMutex := some .cleanup }
  | unlocked (hPc : s.cleanupPc = some (.passing [])) :
      SweepStep s { s with cleanupPc := some .testing, sessionsMutex := none }
  | told {pid : Int32} {left : List Int32} {k : Nat} {session : SessionObject}
      (hPc : s.cleanupPc = some (.passing (pid :: left))) (hStored : s.stored pid = some k)
      (hSession : s.sessions k = some session) :
      SweepStep s { s.tell k session with cleanupPc := some (.joining pid left) }
  | joined {pid : Int32} {left : List Int32} {k : Nat} {session : SessionObject} {u : DaemonSessions}
      (hPc : s.cleanupPc = some (.joining pid left)) (hStored : s.stored pid = some k)
      (hSession : s.sessions k = some session) (hJoin : JoinStep s k session u) :
      SweepStep s { u with cleanupPc := some (.erasing pid left) }
  | erased {pid : Int32} {left : List Int32} {k : Nat}
      (hPc : s.cleanupPc = some (.erasing pid left)) (hStored : s.stored pid = some k) :
      SweepStep s { s.eraseSession pid k with cleanupPc := some (.passing left) }

inductive WorkerStep (s : DaemonSessions) (k : Nat) : DaemonSessions → Prop where
  | tested (pc : SessionWorkerPc) (hWorker : s.workers k = some .testing) :
      WorkerStep s k (s.setWorker k pc)
  | accepted {object : UnixSocket} {outcome : Option Nat} {came : Bool}
      {sockets : UnixSockets SocketPlace} (hWorker : s.workers k = some .accepting)
      (hObject : s.sockets.objects (.session k) = some object)
      (hAccept : s.sockets.accept object (.request k) outcome = some (came, sockets)) :
      WorkerStep s k { s.setWorker k (if came then .serving else .testing) with sockets := sockets }
  | served (hWorker : s.workers k = some .serving) :
      WorkerStep s k { s.setWorker k .testing with sockets := s.sockets.reset (.request k) }

inductive Step (s : DaemonSessions) : DaemonSessions → Prop where
  | main {t : DaemonSessions} (hRun : RunStep s t) : Step s t
  /-- Signals and their handler. -/
  | handler (running cleanupJoinable : Bool) (handler : Option StopPc) :
      Step s { s with running := running, cleanupJoinable := cleanupJoinable, handler := handler }
  | cleanup {t : DaemonSessions} (hSweep : SweepStep s t) : Step s t
  | worker {k : Nat} {t : DaemonSessions} (hWorker : WorkerStep s k t) : Step s t
  | opened {fd : Nat} (hFree : s.sockets.ledger.openings fd = none) :
      Step s { s with sockets := { s.sockets with ledger := s.sockets.ledger.openForeign fd } }
  | closed {fd : Nat} (hForeign : s.sockets.ledger.openings fd = some .foreign) :
      Step s { s with sockets := { s.sockets with ledger := s.sockets.ledger.close fd } }

section Cases

variable {s t : DaemonSessions}

theorem stop_frame {pc : StopPc} {next : Option StopPc} (h : s.stop pc = some (next, t)) :
    ∃ running cleanupJoinable, t = { s with running := running, cleanupJoinable := cleanupJoinable } := by
  cases pc with
  | storing =>
      obtain ⟨rfl, rfl⟩ := Prod.mk.inj (Option.some.inj h)
      exact ⟨false, s.cleanupJoinable, rfl⟩
  | joining =>
      simp only [stop] at h
      split_ifs at h
      · obtain ⟨rfl, rfl⟩ := Prod.mk.inj (Option.some.inj h)
        exact ⟨s.running, false, rfl⟩
      · obtain ⟨rfl, rfl⟩ := Prod.mk.inj (Option.some.inj h)
        exact ⟨s.running, s.cleanupJoinable, rfl⟩

theorem join_cases {k : Nat} {session : SessionObject} (h : s.join k session = some t) :
    JoinStep s k session t := by
  unfold join at h
  split_ifs at h with hThread hLeft
  · exact Option.some.inj h ▸ .joined hThread hLeft
  · exact Option.some.inj h ▸ .nothing hThread

theorem storedSession_eq_some {pid : Int32} {k : Nat} {session : SessionObject} :
    s.storedSession pid = some (k, session) ↔ s.stored pid = some k ∧ s.sessions k = some session := by
  unfold storedSession
  cases s.stored pid with
  | none => simp
  | some number => aesop

theorem constructorStep_cases {input : RunInput} (h : s.constructorStep input = some t) :
    RunStep s t := by
  unfold constructorStep at h
  split at h
  case h_1 hPc =>
      split_ifs at h
      · exact Option.some.inj h ▸ .moved (.refused hPc)
      · exact Option.some.inj h ▸ .mainCreated hPc
  case h_2 hPc =>
      split at h
      · cases h
      · next object hObject =>
          obtain ⟨⟨done, sockets⟩, hInitialize, rfl⟩ := Option.map_eq_some_iff.mp h
          exact .mainInitialized hPc hObject hInitialize
  case h_3 hPc =>
      split_ifs at h
      · exact Option.some.inj h ▸ .moved (.notStarted hPc)
      · exact Option.some.inj h ▸ .cleanupStarted hPc
  case h_4 hPc => exact Option.some.inj h ▸ .mainDropped hPc
  case h_5 => cases h

theorem registrationStep_cases {input : RunInput} (h : s.registrationStep input = some t) :
    RunStep s t := by
  unfold registrationStep at h
  cases hPc : s.runPc with
  | locking pid =>
      simp only [hPc] at h
      split_ifs at h with hFree
      exact Option.some.inj h ▸ .locked hPc hFree
  | looking pid =>
      simp only [hPc] at h
      rw [← Option.some.inj h]
      split_ifs with hStored
      · exact .moved (.known hPc)
      · exact .moved (.unknown hPc (by simpa using hStored))
  | creating pid =>
      simp only [hPc] at h
      split_ifs at h
      · exact Option.some.inj h ▸ .unlocked (.notCreated hPc)
      · exact Option.some.inj h ▸ .created hPc
  | creatingSocket pid k =>
      simp only [hPc] at h
      split at h
      · cases h
      · next session hSession =>
          split_ifs at h
          · exact Option.some.inj h ▸ .moved (.noSocket hPc)
          · exact Option.some.inj h ▸ .socketCreated hPc hSession
  | initializing pid k =>
      simp only [hPc] at h
      split at h
      · cases h
      · next object hObject =>
          obtain ⟨⟨done, sockets⟩, hInitialize, rfl⟩ := Option.map_eq_some_iff.mp h
          exact .socketInitialized hPc hObject hInitialize
  | storing pid k =>
      simp only [hPc] at h
      split_ifs at h
      · exact Option.some.inj h ▸ .moved (.notInserted hPc)
      · exact Option.some.inj h ▸ .inserted hPc
  | dropping k =>
      simp only [hPc] at h
      exact Option.some.inj h ▸ .dropped hPc
  | starting pid k =>
      simp only [hPc] at h
      split_ifs at h
      · exact Option.some.inj h ▸ .unlocked (.notStarted hPc)
      · exact Option.some.inj h ▸ .started hPc
  | assigning pid k =>
      simp only [hPc] at h
      split at h
      · cases h
      · next session hSession => exact Option.some.inj h ▸ .assigned hPc hSession
  | responding =>
      simp only [hPc] at h
      exact Option.some.inj h ▸ .unlocked (.responded hPc)
  | _ =>
      rw [hPc] at h
      cases h

theorem shutdownStep_cases {input : RunInput} (h : s.shutdownStep input = some t) :
    RunStep s t := by
  unfold shutdownStep at h
  split at h
  case h_1 hPc =>
      split_ifs at h with hLock
      exact Option.some.inj h ▸ .cleanupLocked hPc hLock.1 hLock.2
  case h_2 hPc => exact Option.some.inj h ▸ .moved (.allJoined hPc)
  case h_3 hPc =>
      split at h
      · cases h
      · next k session hFound =>
          obtain ⟨hStored, hSession⟩ := storedSession_eq_some.mp hFound
          exact Option.some.inj h ▸ .told hPc hStored hSession
  case h_4 hPc =>
      split at h
      · cases h
      · next k session hFound =>
          obtain ⟨hStored, hSession⟩ := storedSession_eq_some.mp hFound
          obtain ⟨u, hJoin, rfl⟩ := Option.map_eq_some_iff.mp h
          exact .joined hPc hStored hSession (join_cases hJoin)
  case h_5 hPc =>
      split at h
      · next hEmpty => exact Option.some.inj h ▸ .unlocked (.cleared hPc hEmpty)
      · obtain ⟨k, hStored, rfl⟩ := Option.map_eq_some_iff.mp h
        exact .erased (.inl hPc) hStored
  case h_6 hPc => exact Option.some.inj h ▸ .moved (.returns hPc)
  case h_7 hPc =>
      obtain ⟨⟨next, u⟩, hStop, rfl⟩ := Option.map_eq_some_iff.mp h
      obtain ⟨running, cleanupJoinable, rfl⟩ := stop_frame hStop
      refine .stopped running cleanupJoinable hPc ?_
      cases next with
      | none => exact .inl rfl
      | some again => exact .inr ⟨again, rfl⟩
  case h_8 hPc =>
      split at h
      · exact Option.some.inj h ▸ .moved (.emptied hPc)
      · obtain ⟨k, hStored, rfl⟩ := Option.map_eq_some_iff.mp h
        exact .erased (.inr hPc) hStored
  case h_9 => cases h

theorem loopStep_cases {input : RunInput} (h : s.loopStep input = some t) : RunStep s t := by
  unfold loopStep at h
  split at h
  case h_1 hPc =>
      rw [← Option.some.inj h]
      split_ifs
      · exact .moved (.entered hPc)
      · exact .moved (.notRoot hPc)
  case h_2 hPc =>
      rw [← Option.some.inj h]
      split_ifs
      · exact .moved (.loops hPc)
      · exact .moved (.leaves hPc)
  case h_3 hPc =>
      split at h
      · cases h
      · next object hObject =>
          obtain ⟨⟨came, sockets⟩, hAccept, rfl⟩ := Option.map_eq_some_iff.mp h
          exact .accepted hPc hObject hAccept
  case h_4 hPc =>
      rw [← Option.some.inj h]
      cases input.request with
      | none => exact .moved (.invalid hPc)
      | some pid => exact .moved (.requested pid hPc)
  case h_5 hPc => exact Option.some.inj h ▸ .closed hPc
  case h_6 => cases h

theorem cleanupStep_cases {order : List Int32} {expired : Bool}
    (h : s.cleanupStep order expired = some t) : SweepStep s t := by
  unfold cleanupStep at h
  split at h
  case h_1 => cases h
  case h_2 => cases h
  case h_3 hPc =>
      rw [← Option.some.inj h]
      split_ifs
      · exact .moved (.loops hPc)
      · exact .moved (.exits hPc)
  case h_4 hPc => exact Option.some.inj h ▸ .moved (.wakes hPc)
  case h_5 hPc =>
      split_ifs at h with hLock
      exact Option.some.inj h ▸ .locked hPc hLock.1
  case h_6 hPc => exact Option.some.inj h ▸ .unlocked hPc
  case h_7 hPc =>
      split at h
      · cases h
      · next k session hFound =>
          obtain ⟨hStored, hSession⟩ := storedSession_eq_some.mp hFound
          split_ifs at h
          · exact Option.some.inj h ▸ .told hPc hStored hSession
          · exact Option.some.inj h ▸ .moved (.kept hPc)
  case h_8 hPc =>
      split at h
      · cases h
      · next k session hFound =>
          obtain ⟨hStored, hSession⟩ := storedSession_eq_some.mp hFound
          obtain ⟨u, hJoin, rfl⟩ := Option.map_eq_some_iff.mp h
          exact .joined hPc hStored hSession (join_cases hJoin)
  case h_9 hPc =>
      obtain ⟨k, hStored, rfl⟩ := Option.map_eq_some_iff.mp h
      exact .erased hPc hStored

theorem workerStep_cases {k : Nat} {accepted : Option Nat} (h : s.workerStep k accepted = some t) :
    WorkerStep s k t := by
  unfold workerStep at h
  split at h
  · cases h
  · split at h
    case h_1 => cases h
    case h_2 => cases h
    case h_3 hWorker => exact Option.some.inj h ▸ .tested _ hWorker
    case h_4 hWorker =>
        split at h
        · cases h
        · next object hObject =>
            obtain ⟨⟨came, sockets⟩, hAccept, rfl⟩ := Option.map_eq_some_iff.mp h
            exact .accepted hWorker hObject hAccept
    case h_5 hWorker => exact Option.some.inj h ▸ .served hWorker

theorem runStep_cases {input : RunInput} (h : s.runStep input = some t) : RunStep s t := by
  simp only [runStep, Option.or_eq_some_iff] at h
  rcases h with hStep | ⟨_, hStep | ⟨_, hStep | ⟨_, hStep⟩⟩⟩
  · exact constructorStep_cases hStep
  · exact loopStep_cases hStep
  · exact registrationStep_cases hStep
  · exact shutdownStep_cases hStep

theorem machine_step {action : Action} (h : machine.step s action = some t) : Step s t := by
  change s.step action = some t at h
  cases action with
  | main input =>
      simp only [step] at h
      split_ifs at h
      exact .main (runStep_cases h)
  | signal =>
      simp only [step, signal] at h
      split at h
      · cases h
      · split_ifs at h
        · exact Option.some.inj h ▸ .handler s.running s.cleanupJoinable (some .storing)
        · exact Option.some.inj h ▸ .handler s.running s.cleanupJoinable s.handler
  | handler =>
      simp only [step, handlerStep] at h
      split at h
      · cases h
      · obtain ⟨⟨next, u⟩, hStop, rfl⟩ := Option.map_eq_some_iff.mp h
        obtain ⟨running, cleanupJoinable, rfl⟩ := stop_frame hStop
        exact .handler running cleanupJoinable next
  | cleanup order expired => exact .cleanup (cleanupStep_cases h)
  | worker k accepted => exact .worker (workerStep_cases h)
  | openForeign fd =>
      simp only [step] at h
      split_ifs at h with hFree
      exact Option.some.inj h ▸ .opened hFree
  | closeForeign fd =>
      simp only [step] at h
      split_ifs at h with hForeign
      exact Option.some.inj h ▸ .closed hForeign

end Cases

end HyCAN.DaemonSessions
