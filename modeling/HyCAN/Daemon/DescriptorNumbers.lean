import HyCAN.Daemon.SocketFiles

/-! The numbers that the kernel gives the daemon's sockets. Each session takes one, and the
sessions are as many as the processes that clients say they are. -/
namespace HyCAN

open Ownership Transition

namespace DaemonSessions

/-- What `socket` or `accept` returns in the step. -/
def returned (s : DaemonSessions) : Action → Option Nat
  | .main input =>
    match s.runPc with
    | .initializingMain | .initializing .. => input.outcome.fd
    | .accepting => input.accepted
    | _ => none
  | .worker k accepted => if s.workers k = some .accepting then accepted else none
  | _ => none

/-- A number that the kernel returns in the step is one that it may give, as far as that
depends on what the process has open. -/
def ByKernel (kernel : (Nat → Option Opening) → Nat → Prop) (s : DaemonSessions) (action : Action) : Prop :=
  ∀ fd, s.returned action = some fd → kernel s.sockets.ledger.openings fd

/-- What a daemon reaches with the numbers that the kernel gives. -/
def Reaches (kernel : (Nat → Option Opening) → Nat → Prop) (start s : DaemonSessions) : Prop :=
  machine.ReachableBy (ByKernel kernel) start s

variable {s t : DaemonSessions}

/-- What a step can do with the socket objects, given the number from the kernel. -/
inductive SocketsMove (s : DaemonSessions) : Option Nat → UnixSockets SocketPlace → Prop where
  | same {sockets : UnixSockets SocketPlace} {fd : Option Nat} (hObjects : sockets.objects = s.sockets.objects)
      (hFiles : sockets.files = s.sockets.files)
      (hSerial : sockets.ledger.nextSerial = s.sockets.ledger.nextSerial) : SocketsMove s fd sockets
  | created {fd : Option Nat} (o : SocketPlace) (name : List UInt8) :
      SocketsMove s fd (s.sockets.put o (.ofName name .server))
  | initialized {o : SocketPlace} {object : UnixSocket} {outcome : InitializeOutcome} {done : Bool}
      {sockets : UnixSockets SocketPlace} (hObject : s.sockets.objects o = some object)
      (hNew : object.socketFd = none)
      (hInitialize : s.sockets.initializeSocket o object outcome = some (done, sockets)) :
      SocketsMove s outcome.fd sockets
  | accepted {object : UnixSocket} {new : SocketPlace} {outcome : Option Nat} {came : Bool}
      {sockets : UnixSockets SocketPlace}
      (hAccept : s.sockets.accept object new outcome = some (came, sockets)) :
      SocketsMove s outcome sockets
  | dropped {fd : Option Nat} (o : SocketPlace) : SocketsMove s fd (s.sockets.reset o)

theorem SocketsMove.follows {fd : Option Nat} {sockets : UnixSockets SocketPlace}
    (h : SocketsMove s fd sockets) : s.sockets.Follows sockets := by
  cases h with
  | same hObjects hFiles hSerial => exact .same hSerial hFiles
  | created => exact .same rfl rfl
  | initialized hObject hNew hInitialize => exact .initialization hInitialize
  | accepted hAccept => exact .accept hAccept
  | dropped o => exact .reset s.sockets o

section Steps

variable {input : RunInput} {object : UnixSocket}

theorem runStep_initializingMain (hPc : s.runPc = .initializingMain)
    (hObject : s.sockets.objects .main = some object) :
    s.runStep input = (s.sockets.initializeSocket .main object input.outcome).map fun (done, sockets) =>
      { s with sockets := sockets, runPc := if done then .startingCleanup else .droppingMain } := by
  simp only [runStep, constructorStep, loopStep, registrationStep, shutdownStep, hPc, hObject, Option.or_none]

theorem runStep_initializing {pid : Int32} {k : Nat} (hPc : s.runPc = .initializing pid k)
    (hObject : s.sockets.objects (.session k) = some object) :
    s.runStep input =
      (s.sockets.initializeSocket (.session k) object input.outcome).map fun (done, sockets) =>
        { s with sockets := sockets, runPc := if done then .storing pid k else .dropping k } := by
  simp only [runStep, constructorStep, loopStep, registrationStep, shutdownStep, hPc, hObject, Option.or_none,
    Option.none_or]

theorem runStep_entering (hPc : s.runPc = .entering) :
    s.runStep input = some { s with runPc := if s.root then .testing else .returned } := by
  simp only [runStep, constructorStep, loopStep, hPc, Option.some_or, Option.none_or]

theorem runStep_accepting (hPc : s.runPc = .accepting) (hObject : s.sockets.objects .main = some object) :
    s.runStep input = (s.sockets.accept object .registration input.accepted).map fun (came, sockets) =>
      { s with sockets := sockets, runPc := if came then .receiving else .testing } := by
  simp only [runStep, constructorStep, loopStep, registrationStep, shutdownStep, hPc, hObject, Option.or_none,
    Option.none_or]

theorem runStep_socketsMove (hFacts : s.SocketFacts s.runPc) (h : s.runStep input = some t) :
    SocketsMove s (s.returned (.main input)) t.sockets := by
  cases runStep_cases h with
  | mainCreated | socketCreated => exact .created _ _
  | @mainInitialized object _ _ sockets hPc hObject _ =>
      rw [runStep_initializingMain hPc hObject] at h
      obtain ⟨⟨done, same⟩, hInitialize, hSame⟩ := Option.map_eq_some_iff.mp h
      obtain rfl : same = sockets := congrArg DaemonSessions.sockets hSame
      rw [hPc] at hFacts
      have hMove := SocketsMove.initialized hObject (hFacts object hObject) hInitialize
      simpa only [returned, hPc] using hMove
  | @socketInitialized pid k object _ _ sockets hPc hObject _ =>
      rw [runStep_initializing hPc hObject] at h
      obtain ⟨⟨done, same⟩, hInitialize, hSame⟩ := Option.map_eq_some_iff.mp h
      obtain rfl : same = sockets := congrArg DaemonSessions.sockets hSame
      rw [hPc] at hFacts
      have hMove := SocketsMove.initialized hObject (hFacts object hObject) hInitialize
      simpa only [returned, hPc] using hMove
  | @accepted object _ _ sockets hPc hObject _ =>
      rw [runStep_accepting hPc hObject] at h
      obtain ⟨⟨came, same⟩, hAccept, hSame⟩ := Option.map_eq_some_iff.mp h
      obtain rfl : same = sockets := congrArg DaemonSessions.sockets hSame
      have hMove := SocketsMove.accepted (s := s) hAccept
      simpa only [returned, hPc] using hMove
  | mainDropped | closed | dropped | erased => exact .dropped _
  | joined _ _ _ hJoin =>
      obtain ⟨sessions, rfl⟩ := hJoin.frame
      exact .same rfl rfl rfl
  | moved | unlocked | locked | cleanupLocked | cleanupStarted | created | inserted | started | assigned
  | told | stopped => exact .same rfl rfl rfl

theorem workerStep_socketsMove {k : Nat} {accepted : Option Nat} (h : s.workerStep k accepted = some t) :
    SocketsMove s (s.returned (.worker k accepted)) t.sockets := by
  unfold workerStep at h
  split at h
  · cases h
  · split at h
    case h_1 | h_2 => cases h
    case h_3 => exact Option.some.inj h ▸ .same rfl rfl rfl
    case h_4 hWorker =>
        split at h
        · cases h
        · obtain ⟨⟨came, sockets⟩, hAccept, rfl⟩ := Option.map_eq_some_iff.mp h
          have hMove := SocketsMove.accepted (s := s) hAccept
          simpa only [returned, hWorker, if_true] using hMove
    case h_5 => exact Option.some.inj h ▸ .dropped _

/-- The main thread does not move in the steps of the others. -/
theorem step_aside {action : Action} (hMain : ∀ input, action ≠ .main input)
    (h : machine.step s action = some t) :
    t.runPc = s.runPc ∧ SocketsMove s (s.returned action) t.sockets := by
  change s.step action = some t at h
  cases action with
  | main input => exact absurd rfl (hMain input)
  | worker k accepted =>
      refine ⟨?_, workerStep_socketsMove h⟩
      cases workerStep_cases h <;> rfl
  | signal =>
      simp only [step, signal] at h
      split at h
      · cases h
      · split_ifs at h
        all_goals exact Option.some.inj h ▸ ⟨rfl, .same rfl rfl rfl⟩
  | handler =>
      simp only [step, handlerStep] at h
      split at h
      · cases h
      · obtain ⟨⟨next, u⟩, hStop, rfl⟩ := Option.map_eq_some_iff.mp h
        obtain ⟨running, cleanupJoinable, rfl⟩ := stop_frame hStop
        exact ⟨rfl, .same rfl rfl rfl⟩
  | cleanup order expired =>
      cases cleanupStep_cases h with
      | erased => exact ⟨rfl, .dropped _⟩
      | joined _ _ _ hJoin =>
          obtain ⟨sessions, rfl⟩ := hJoin.frame
          exact ⟨rfl, .same rfl rfl rfl⟩
      | moved | locked | unlocked | told => exact ⟨rfl, .same rfl rfl rfl⟩
  | openForeign fd | closeForeign fd =>
      simp only [step] at h
      split_ifs at h
      exact Option.some.inj h ▸ ⟨rfl, .same rfl rfl rfl⟩

theorem step_main (hHandler : s.handler = none) : machine.step s (.main input) = s.runStep input :=
  if_pos hHandler

theorem runStep_of_main (h : machine.step s (.main input) = some t) : s.runStep input = some t := by
  change s.step (.main input) = some t at h
  simp only [step] at h
  split_ifs at h
  exact h

theorem machine_socketsMove (hFacts : s.SocketFacts s.runPc) {action : Action}
    (h : machine.step s action = some t) : SocketsMove s (s.returned action) t.sockets := by
  cases action with
  | main input => exact runStep_socketsMove hFacts (runStep_of_main h)
  | _ => exact (step_aside (by simp) h).2

end Steps

section Runs

variable {kernel : (Nat → Option Opening) → Nat → Prop} {start : DaemonSessions}
  {application : Nat → Bool} {stale directory : List UInt8 → Bool} {pid : Int32}

theorem Reaches.main (h : Reaches kernel start s) (input : RunInput) (hHandler : s.handler = none)
    (hKernel : s.ByKernel kernel (.main input)) (hRun : s.runStep input = some t) : Reaches kernel start t :=
  .step h hKernel ((step_main hHandler).trans hRun)

/-- A step of the main thread that makes neither a socket nor a connection. -/
theorem Reaches.silent (h : Reaches kernel start s) (input : RunInput) (hHandler : s.handler = none)
    (hOutcome : input.outcome.fd = none) (hAccepted : input.accepted = none)
    (hRun : s.runStep input = some t) : Reaches kernel start t := by
  refine h.main input hHandler (fun fd hFd => ?_) hRun
  simp only [returned] at hFd
  split at hFd
  · cases hOutcome.symm.trans hFd
  · cases hOutcome.symm.trans hFd
  · cases hAccepted.symm.trans hFd
  · cases hFd

/-- Somebody else's descriptor may be closed first. -/
theorem reaches_closed {root : Bool} (fd : Nat) : Reaches kernel (init root application stale directory)
    (init root (Function.update application fd false) stale directory) := by
  cases hOpen : application fd with
  | false =>
      rw [← hOpen, Function.update_eq_self]
      exact .start
  | true =>
      refine .step (a := .closeForeign fd) .start nofun ?_
      have hForeign : (init root application stale directory).sockets.ledger.openings fd = some .foreign := by
        simp [init, hOpen]
      refine (if_pos hForeign).trans ?_
      have hOpenings : Function.update (init root application stale directory).sockets.ledger.openings fd none =
          (init root (Function.update application fd false) stale directory).sockets.ledger.openings := by
        funext number
        by_cases hSame : number = fd <;> simp [init, Function.update_apply, hSame]
      simp only [Ledger.close, hOpenings]
      rfl

/-- A daemon that may serve gets into its loop. -/
theorem reaches_loop {fd : Nat} (hStart : Reaches kernel start (init true application stale directory))
    (hFree : application fd = false) (hDirectory : directory mainPath = false)
    (hKernel : kernel (init true application stale directory).sockets.ledger.openings fd) :
    ∃ sockets, Reaches kernel start { init true application stale directory with
        sockets := sockets, cleanupPc := some .testing, cleanupJoinable := true, runPc := .testing } ∧
      sockets.ledger = (init true application stale directory).sockets.ledger.issue .main fd ∧
      sockets.objects = Function.update (fun _ => none) .main (some ⟨some fd, mainPath, .server, true⟩) := by
  let first := init true application stale directory
  let object := UnixSocket.ofName (ascii "daemon") .server
  have hCreated := hStart.silent quiet rfl rfl rfl
    (t := { first with sockets := first.sockets.put .main object, runPc := .initializingMain }) rfl
  have hFile : first.sockets.files object.file ≠ some .directory := by
    rw [file_main rfl]
    change leftOver stale directory mainPath ≠ _
    rw [leftOver, hDirectory]
    split_ifs <;> simp_all
  have hNumber : first.sockets.ledger.openings fd = none := by
    simp [first, init, hFree]
  obtain ⟨sockets, hInitialize, hLedger, hObjects⟩ :=
    (first.sockets.put .main object).initializeSocket_done .main (show object.mode = .server from rfl)
      (by decide +kernel) hFile hNumber
  have hInitialized := hCreated.main { quiet with outcome := .done fd } rfl
    (t := { first with sockets := sockets, runPc := .startingCleanup })
    (fun number hSame => Option.some.inj hSame ▸ hKernel) (by
      rw [runStep_initializingMain rfl (UnixSockets.object_put ..), hInitialize]
      rfl)
  have hEntering := hInitialized.silent quiet rfl rfl rfl
    (t := { first with
      sockets := sockets, cleanupPc := some .testing, cleanupJoinable := true, runPc := .entering }) rfl
  exact ⟨sockets, hEntering.silent quiet rfl rfl rfl rfl, hLedger, hObjects.trans (Function.update_idem ..)⟩

/-- Where no directories are at the start, there never are any. -/
theorem Reaches.no_directory {root : Bool}
    (h : Reaches kernel (init root application stale fun _ => false) s) (path : List UInt8) :
    s.sockets.files path ≠ some .directory := by
  induction h with
  | start =>
      change leftOver stale (fun _ => false) path ≠ _
      rw [leftOver]
      split_ifs <;> simp_all
  | step hBefore hKernel hStep ih =>
      intro hDirectory
      have hFiles := (filesKept_of_reachable hBefore.reachable).2
      have hFollows := (machine_socketsMove hFiles.run hStep).follows
      rcases hFollows.files path _ hDirectory with hSame | ⟨serial, hSame, _⟩
      · exact ih hSame
      · cases hSame

/-- The main thread is in its loop and serves, and nobody holds the mutex. -/
structure Ready (s : DaemonSessions) : Prop where
  runPc : s.runPc = .testing
  running : s.running = true
  handler : s.handler = none
  mutex : s.sessionsMutex = none
  main : ∃ object, s.sockets.objects .main = some object ∧ object.mode = .server ∧ object.connected = true

/-- The session serves its client on the descriptor. -/
structure Working (s : DaemonSessions) (k : Nat) (pid : Int32) (fd : Nat) : Prop where
  session : ∃ session, s.sessions k = some session ∧ session.running = true
  worker : s.workers k = some .testing
  socket : s.sockets.objects (.session k) = some ⟨some fd, Daemon.channelPath pid, .server, true⟩

/-- The main thread gets to this point, undisturbed by signals. -/
def placed (s : DaemonSessions) (pc : RunPc) (mutex : Option DaemonThread) : DaemonSessions :=
  { s with running := true, handler := none, runPc := pc, sessionsMutex := mutex }

theorem reaches_receiving (h : Reaches kernel start (s.placed .testing none)) {object : UnixSocket} {fd : Nat}
    (hMain : s.sockets.objects .main = some object) (hMode : object.mode = .server)
    (hConnected : object.connected = true) (hFree : s.sockets.ledger.openings fd = none)
    (hKernel : kernel s.sockets.ledger.openings fd) :
    Reaches kernel start (placed { s with sockets :=
      { s.sockets.put .registration (.ofAccepted fd object.socketPath) with
        ledger := s.sockets.ledger.issue .registration fd } } .receiving none) := by
  have hAccepting : Reaches kernel start (s.placed .accepting none) := h.silent quiet rfl rfl rfl rfl
  refine hAccepting.main { quiet with accepted := some fd } rfl
    (fun number hSame => Option.some.inj hSame ▸ hKernel) ?_
  have hAccept : (s.placed .accepting none).sockets.accept object .registration (some fd) = _ :=
    s.sockets.accept_connected .registration hMode hConnected hFree
  rw [runStep_accepting (s := s.placed .accepting none) rfl hMain, hAccept]
  rfl

theorem reaches_creating (h : Reaches kernel start (s.placed .receiving none))
    (hUnknown : s.stored pid = none) : Reaches kernel start (s.placed (.creating pid) (some .main)) := by
  have hLocking : Reaches kernel start (s.placed (.locking pid) none) :=
    h.silent { quiet with request := some pid } rfl rfl rfl rfl
  have hLooking : Reaches kernel start (s.placed (.looking pid) (some .main)) :=
    hLocking.silent quiet rfl rfl rfl rfl
  refine hLooking.silent quiet rfl rfl rfl ?_
  change some (s.placed (if (s.stored pid).isSome then .responding else .creating pid) (some .main)) = _
  rw [hUnknown]
  rfl

theorem reaches_storing (h : Reaches kernel start (s.placed (.creating pid) (some .main))) {fd : Nat}
    (hFile : s.sockets.files (Daemon.channelPath pid) ≠ some .directory)
    (hFree : s.sockets.ledger.openings fd = none) (hKernel : kernel s.sockets.ledger.openings fd) :
    ∃ sockets, Reaches kernel start (placed { s with
        sessions := Function.update s.sessions s.nextSession
          (some ⟨pid, Daemon.generateClientChannelName pid, .null, true⟩)
        nextSession := s.nextSession + 1
        sockets := sockets } (.storing pid s.nextSession) (some .main)) ∧
      sockets.ledger = s.sockets.ledger.issue (.session s.nextSession) fd ∧
      sockets.objects = Function.update s.sockets.objects (.session s.nextSession)
        (some ⟨some fd, Daemon.channelPath pid, .server, true⟩) := by
  let session : SessionObject := ⟨pid, Daemon.generateClientChannelName pid, .null, true⟩
  let made := { s with
    sessions := Function.update s.sessions s.nextSession (some session), nextSession := s.nextSession + 1 }
  let object := UnixSocket.ofName (Daemon.generateClientChannelName pid) .server
  have hSession : made.sessions s.nextSession = some session := Function.update_self ..
  have hCreated : Reaches kernel start (made.placed (.creatingSocket pid s.nextSession) (some .main)) :=
    h.silent quiet rfl rfl rfl rfl
  have hSocket : Reaches kernel start (placed
      { made with sockets := s.sockets.put (.session s.nextSession) object }
      (.initializing pid s.nextSession) (some .main)) := by
    refine hCreated.silent quiet rfl rfl rfl ?_
    simp only [runStep, constructorStep, loopStep, registrationStep, shutdownStep, placed, hSession]
    rfl
  have hPath : s.sockets.files object.file ≠ some .directory := by
    rw [file_channel rfl]
    exact hFile
  obtain ⟨sockets, hInitialize, hLedger, hObjects⟩ :=
    (s.sockets.put (.session s.nextSession) object).initializeSocket_done (.session s.nextSession)
      (show object.mode = .server from rfl) (Daemon.length_channelPath_lt pid) hPath hFree
  refine ⟨sockets, ?_, hLedger, hObjects.trans (Function.update_idem ..)⟩
  refine hSocket.main { quiet with outcome := .done fd } rfl
    (fun number hSame => Option.some.inj hSame ▸ hKernel) ?_
  rw [runStep_initializing rfl (UnixSockets.object_put ..)]
  simp only [placed]
  rw [hInitialize]
  rfl

theorem reaches_closing {k : Nat} (h : Reaches kernel start (s.placed (.storing pid k) (some .main)))
    {session : SessionObject} (hSession : s.sessions k = some session) :
    Reaches kernel start (placed { s with
      clientSessions := s.clientSessions.insert pid k
      workers := Function.update s.workers k (some .testing)
      sessions := Function.update s.sessions k (some { session with workerThread := .joinable }) }
      .closing none) := by
  let stored := { s with clientSessions := s.clientSessions.insert pid k }
  have hStored : Reaches kernel start (stored.placed (.starting pid k) (some .main)) :=
    h.silent quiet rfl rfl rfl rfl
  have hStarted : Reaches kernel start ((stored.setWorker k .testing).placed (.assigning pid k) (some .main)) :=
    hStored.silent quiet rfl rfl rfl rfl
  have hAssigned : Reaches kernel start (((stored.setWorker k .testing).setSession k
      { session with workerThread := .joinable }).placed .responding (some .main)) := by
    refine hStarted.silent quiet rfl rfl rfl ?_
    have hWorker : (stored.setWorker k .testing).sessions k = some session := hSession
    simp only [runStep, constructorStep, loopStep, registrationStep, shutdownStep, placed, hWorker]
    rfl
  exact hAssigned.silent quiet rfl rfl rfl rfl

theorem Ready.placed (h : s.Ready) : s.placed .testing none = s := by
  obtain ⟨hPc, hRunning, hHandler, hMutex, _⟩ := h
  cases s
  simp_all [DaemonSessions.placed]

/-- A process that has no session registers: it gets one on the second number, after the
first has been taken for its connection. -/
theorem Ready.registers (hReady : s.Ready) (h : Reaches kernel start s) (pid : Int32) (fd own : Nat)
    (hUnknown : s.stored pid = none) (hFile : s.sockets.files (Daemon.channelPath pid) ≠ some .directory)
    (hFree : s.sockets.ledger.openings fd = none) (hOwn : s.sockets.ledger.openings own = none) (hNe : own ≠ fd)
    (hAccept : kernel s.sockets.ledger.openings fd)
    (hSocket : ∀ serial, kernel (Function.update s.sockets.ledger.openings fd (some (.issued serial))) own) :
    ∃ t, Reaches kernel start t ∧ t.Ready ∧ t.Working s.nextSession pid own ∧
      t.nextSession = s.nextSession + 1 ∧ (∀ other, other ≠ pid → t.stored other = s.stored other) ∧
      (∀ number, t.sockets.ledger.openings number = none ↔
        number ≠ own ∧ s.sockets.ledger.openings number = none) ∧
      ∀ k client number, k ≠ s.nextSession → s.Working k client number → t.Working k client number := by
  obtain ⟨object, hMain, hMode, hConnected⟩ := hReady.main
  have hReceiving := reaches_receiving (hReady.placed.symm ▸ h) hMain hMode hConnected hFree hAccept
  have hCreating := reaches_creating hReceiving hUnknown
  obtain ⟨sockets, hStoring, hLedger, hObjects⟩ := reaches_storing hCreating hFile
    ((Function.update_of_ne hNe _ _).trans hOwn) (hSocket _)
  have hClosing := reaches_closing hStoring (Function.update_self s.nextSession
    (some ⟨pid, Daemon.generateClientChannelName pid, .null, true⟩) s.sessions)
  have hTesting := hClosing.silent quiet rfl rfl rfl rfl
  have hRegistration : sockets.objects .registration = some (.ofAccepted fd object.socketPath) := by
    rw [hObjects, Function.update_of_ne (by simp)]
    exact UnixSockets.object_put s.sockets .registration _
  have hReset := UnixSockets.reset_client hRegistration rfl rfl
  have hKeeps : ∀ o, o ≠ .registration → (sockets.reset .registration).objects o = sockets.objects o := by
    intro o hOther
    rw [hReset]
    exact Function.update_of_ne hOther _ _
  have hOthers : ∀ o, o ≠ .registration → o ≠ .session s.nextSession →
      (sockets.reset .registration).objects o = s.sockets.objects o := by
    intro o hConnection hSession
    rw [hKeeps o hConnection, hObjects, Function.update_of_ne hSession]
    exact Function.update_of_ne hConnection _ _
  have hOpenings : ∀ number, (sockets.reset .registration).ledger.openings number = none ↔
      number ≠ own ∧ s.sockets.ledger.openings number = none := by
    intro number
    rw [hReset, hLedger]
    simp only [Ledger.forget, Ledger.close, Ledger.issue, Function.update_apply]
    rcases eq_or_ne number fd with rfl | hOther
    · simp [hFree, hNe.symm]
    · rcases eq_or_ne number own with rfl | hThird
      · simp [hOther]
      · simp [hOther, hThird]
  refine ⟨_, hTesting, ⟨rfl, rfl, rfl, rfl, object, ?_, hMode, hConnected⟩,
    ⟨⟨_, Function.update_self .., rfl⟩, Function.update_self _ _ s.workers, ?_⟩, rfl, ?_, hOpenings, ?_⟩
  · exact (hOthers .main (by simp) (by simp)).trans hMain
  · refine (hKeeps (.session s.nextSession) (by simp)).trans ?_
    rw [hObjects]
    exact Function.update_self ..
  · intro other hOther
    exact AList.lookup_insert_ne hOther
  · intro k client number hOther hWorking
    obtain ⟨⟨session, hSession, hRunning⟩, hWorker, hServer⟩ := hWorking
    have hSame := hOthers (.session k) (by simp) (by simpa using hOther)
    refine ⟨⟨session, ?_, hRunning⟩, ?_, hSame.trans hServer⟩
    · refine (Function.update_of_ne hOther _ _).trans ?_
      exact (Function.update_of_ne hOther _ _).trans hSession
    · exact (Function.update_of_ne hOther _ _).trans hWorker

/-- What a kernel gives that always takes the lowest number. -/
def LowestFree (openings : Nat → Option Opening) (fd : Nat) : Prop :=
  ∀ number, number < fd → openings number ≠ none

/-- The daemon serves `n` processes, and the numbers behind 4 are in use for them. -/
structure Crowded (s : DaemonSessions) (n : Nat) : Prop where
  ready : s.Ready
  next : s.nextSession = n
  unknown : ∀ i, n ≤ i → i < 2 ^ 31 → s.stored (Int32.ofNat i) = none
  openings : ∀ fd, s.sockets.ledger.openings fd = none ↔ fd = 4 ∨ n + 5 ≤ fd
  working : ∀ k, k < n → s.Working k (Int32.ofNat k) (k + 5)

theorem ofNat_ne {i n : Nat} (hI : i < 2 ^ 31) (hN : n < 2 ^ 31) (hNe : i ≠ n) :
    Int32.ofNat i ≠ Int32.ofNat n := by
  intro hSame
  have hInt := congrArg Int32.toInt hSame
  rw [Int32.toInt_ofNat_of_lt hI, Int32.toInt_ofNat_of_lt hN] at hInt
  omega

/-- Processes that register one after the other take a number each. -/
theorem reaches_crowded {n : Nat} (hBound : n ≤ 2 ^ 31) :
    ∃ s, Reaches LowestFree (init true (· < 3) (fun _ => false) fun _ => false) s ∧ s.Crowded n := by
  induction n with
  | zero =>
      let first := init true (· < 3) (fun _ => false) fun _ => false
      have hStart : Reaches LowestFree first first := .start
      have hLowest : LowestFree first.sockets.ledger.openings 3 := by
        intro number hSmall
        simp [first, init, hSmall]
      obtain ⟨sockets, hLoop, hLedger, hObjects⟩ := reaches_loop hStart rfl rfl hLowest
      refine ⟨_, hLoop, ⟨rfl, rfl, rfl, rfl, ⟨some 3, mainPath, .server, true⟩, ?_, rfl, rfl⟩, rfl, ?_, ?_, ?_⟩
      · rw [hObjects, Function.update_self]
      · exact fun i _ _ => AList.lookup_empty _
      · intro fd
        rw [hLedger]
        simp only [init, Ledger.issue, Function.update_apply]
        split_ifs <;> simp_all <;> omega
      · exact fun k hSmall => absurd hSmall (Nat.not_lt_zero k)
  | succ n ih =>
      obtain ⟨s, hReaches, hCrowded⟩ := ih (by omega)
      obtain ⟨hReady, rfl, hUnknown, hOpenings, hWorking⟩ := hCrowded
      obtain ⟨t, hAfter, hAgain, hNew, hNext, hStored, hTaken, hFrame⟩ := hReady.registers hReaches
        (Int32.ofNat s.nextSession) 4 (s.nextSession + 5)
        (hUnknown s.nextSession (Nat.le_refl _) (by omega)) (hReaches.no_directory _)
        ((hOpenings 4).mpr (.inl rfl)) ((hOpenings _).mpr (.inr (Nat.le_refl _))) (by omega)
        (by
          intro number hSmall hFree
          have hLarge := (hOpenings number).mp hFree
          omega)
        (by
          intro serial number hSmall hFree
          rcases eq_or_ne number 4 with rfl | hNe
          · simp at hFree
          · have hLarge := (hOpenings number).mp (by simpa [hNe] using hFree)
            omega)
      refine ⟨t, hAfter, hAgain, hNext, ?_, ?_, ?_⟩
      · intro i hLe hSmall
        rw [hStored _ (ofNat_ne hSmall (by omega) (by omega))]
        exact hUnknown i (by omega) hSmall
      · intro fd
        rw [hTaken fd, hOpenings fd]
        omega
      · intro k hLe
        rcases eq_or_ne k s.nextSession with rfl | hNe
        · exact hNew
        · exact hFrame k _ _ hNe (hWorking k (by omega))

end Runs

end DaemonSessions
end HyCAN
