import HyCAN.Daemon.DescriptorNumbers

/-! What the daemon puts into the sets of `select`. A set has room for `FD_SETSIZE` numbers, and
`FD_SET` of a larger one writes behind it. -/
namespace HyCAN

open Ownership Transition

/-- `FD_SETSIZE` -/
def fdSetSize : Nat := 1024

/-- The argument of an `FD_SET` that stays in the set. -/
def InFdSet (fd : Option Nat) : Prop :=
  ∃ number, fd = some number ∧ number < fdSetSize

/-- `accept` or `recv` of an object, with the timeout in milliseconds. -/
inductive WaitingCall where
  | accept (object : UnixSocket) (timeoutMs : Int)
  | recv (object : UnixSocket) (timeoutMs : Int)

namespace WaitingCall

def object : WaitingCall → UnixSocket
  | accept object _ | recv object _ => object

/-- The arguments of the `FD_SET`s that the call gets to. -/
def fdSets : WaitingCall → List (Option Nat)
  | accept object timeoutMs =>
    if object.mode ≠ .server ∨ object.connected = false then []
    else if 0 < timeoutMs then [object.socketFd]
    else []
  | recv object timeoutMs =>
    if object.connected = false ∨ object.socketFd = none then []
    else if 0 < timeoutMs then [object.socketFd]
    else []

end WaitingCall

/-- Its descriptor is one of the allowed numbers, and it is connected with a descriptor only. -/
structure UnixSocket.Granted (object : UnixSocket) (allowed : Nat → Prop) : Prop where
  number : ∀ fd, object.socketFd = some fd → allowed fd
  connected : object.connected = true → object.socketFd ≠ none

theorem UnixSocket.granted_of_closed {object : UnixSocket} {allowed : Nat → Prop}
    (hFd : object.socketFd = none) (hConnected : object.connected = false) : object.Granted allowed :=
  ⟨by simp [hFd], by simp [hConnected]⟩

theorem WaitingCall.fdSets_granted {call : WaitingCall} {allowed : Nat → Prop}
    (h : call.object.Granted allowed) {fd : Option Nat} (hFd : fd ∈ call.fdSets) :
    ∃ number, fd = some number ∧ allowed number := by
  have hSame : call.object.connected = true ∧ fd = call.object.socketFd := by
    cases call with
    | accept object timeoutMs =>
        simp only [fdSets] at hFd
        split_ifs at hFd with hEarly
        · cases hFd
        · exact ⟨(Bool.not_eq_false _).mp (not_or.mp hEarly).2, List.mem_singleton.mp hFd⟩
        · cases hFd
    | recv object timeoutMs =>
        simp only [fdSets] at hFd
        split_ifs at hFd with hEarly
        · cases hFd
        · exact ⟨(Bool.not_eq_false _).mp (not_or.mp hEarly).1, List.mem_singleton.mp hFd⟩
        · cases hFd
  obtain ⟨number, hNumber⟩ := Option.ne_none_iff_exists'.mp (h.connected hSame.1)
  exact ⟨number, hSame.2.trans hNumber, h.number number hNumber⟩

namespace UnixSockets

variable {Place : Type} [DecidableEq Place] {s t : UnixSockets Place} {o : Place} {object : UnixSocket}
  {allowed : Nat → Prop}

/-- All objects have allowed numbers. -/
def Granted (s : UnixSockets Place) (allowed : Nat → Prop) : Prop :=
  ∀ o object, s.objects o = some object → object.Granted allowed

omit [DecidableEq Place] in
theorem Granted.change (h : s.Granted allowed)
    (hOthers : ∀ other, other ≠ o → t.objects other = s.objects other)
    (hSelf : ∀ object, t.objects o = some object → object.Granted allowed) : t.Granted allowed := by
  intro other object hObject
  by_cases hSame : other = o
  · exact hSelf object (hSame ▸ hObject)
  · exact h other object ((hOthers other hSame).symm.trans hObject)

theorem Granted.put (h : s.Granted allowed) (o : Place) (object : UnixSocket)
    (hObject : object.Granted allowed) : (s.put o object).Granted allowed := by
  refine h.change (fun other hNe => Function.update_of_ne hNe _ _) fun after hAfter => ?_
  cases (Function.update_self ..).symm.trans hAfter
  exact hObject

theorem Granted.reset (h : s.Granted allowed) (o : Place) : (s.reset o).Granted allowed := by
  refine h.change (o := o) (fun other hNe => ?_) fun after hAfter => ?_
  · unfold UnixSockets.reset
    split
    · rfl
    · exact (Touches.destroy s o _).objects other hNe
  · rw [object_reset] at hAfter
    cases hAfter

/-- An object without descriptor gets what `socket` returns, or is left without one. -/
theorem Granted.initialization (h : s.Granted allowed) {outcome : InitializeOutcome} {done : Bool}
    (hObject : s.objects o = some object) (hNew : object.socketFd = none)
    (hAllowed : ∀ fd, outcome.fd = some fd → allowed fd)
    (hInitialize : s.initializeSocket o object outcome = some (done, t)) : t.Granted allowed := by
  cases hFd : outcome.fd with
  | none =>
      simp only [initializeSocket, hFd, Option.some.injEq, Prod.mk.injEq] at hInitialize
      obtain ⟨rfl, rfl⟩ := hInitialize
      have hConnected : object.connected = false := by
        by_contra hConnected
        exact (h o object hObject).connected (Bool.not_eq_false _ ▸ hConnected) hNew
      exact h.put o { object with socketFd := none } (UnixSocket.granted_of_closed rfl hConnected)
  | some fd =>
      cases initializeSocket_end hFd hInitialize with
      | @closes u hFollows hOthers =>
          refine h.change (o := o) (fun other hNe => ?_) fun after hAfter => ?_
          · rw [(Touches.close u o _).objects other hNe, hOthers other hNe]
          · cases (object_close u o _).symm.trans hAfter
            exact UnixSocket.granted_of_closed rfl rfl
      | connects hFollows hOthers hAfter =>
          refine h.change hOthers fun after hSame => ?_
          cases hAfter.symm.trans hSame
          exact ⟨fun number hNumber => Option.some.inj hNumber ▸ hAllowed fd hFd,
            fun _ => Option.some_ne_none fd⟩

theorem Granted.accept (h : s.Granted allowed) {new : Place} {outcome : Option Nat} {came : Bool}
    (hAllowed : ∀ fd, outcome = some fd → allowed fd)
    (hAccept : s.accept object new outcome = some (came, t)) : t.Granted allowed := by
  cases accept_cases hAccept with
  | nothing => exact h
  | @connection fd =>
      exact h.put new (.ofAccepted fd object.socketPath)
        ⟨fun number hNumber => Option.some.inj hNumber ▸ hAllowed fd rfl, fun _ => Option.some_ne_none fd⟩

end UnixSockets

/-- Outside of the loop of `run`, and not on the way out of it. -/
def RunPc.outside : RunPc → Bool
  | .creatingMain | .initializingMain | .startingCleanup | .droppingMain | .entering | .returned
  | .stopping _ | .destroyingSessions | .finished => true
  | .testing | .accepting | .receiving | .locking _ | .looking _ | .creating _ | .creatingSocket ..
  | .initializing .. | .storing .. | .dropping _ | .starting .. | .assigning .. | .responding | .closing
  | .cleanupLocking | .cleaning _ | .joining .. | .clearing => false

namespace DaemonSessions

/-- The call of `accept` or `recv` in the step. All of them wait for a second. -/
def waits (s : DaemonSessions) : Action → Option WaitingCall
  | .main _ =>
    match s.runPc with
    | .accepting => (s.sockets.objects .main).map (.accept · 1000)
    | .receiving => (s.sockets.objects .registration).map (.recv · 1000)
    | _ => none
  | .worker k _ =>
    match s.workers k with
    | some .accepting => (s.sockets.objects (.session k)).map (.accept · 1000)
    | some .serving => (s.sockets.objects (.request k)).map (.recv · 1000)
    | _ => none
  | _ => none

/-- The thread goes on as it does after an error of the call. -/
def Refused (s t : DaemonSessions) : Action → Prop
  | .main _ => t.runPc = if s.runPc = .accepting then .testing else .closing
  | .worker k _ => t.workers k = some .testing
  | _ => False

/-- What the call waits for is in the set, and a number that does not fit into one is refused. -/
def SelectsInBounds (s : DaemonSessions) (action : Action) (t : DaemonSessions) : Prop :=
  ∀ call, s.waits action = some call → (∀ fd ∈ call.fdSets, InFdSet fd) ∧
    ∀ fd, call.object.socketFd = some fd → fdSetSize ≤ fd → s.Refused t action

variable {s t : DaemonSessions} {allowed : Nat → Prop}

theorem object_of_waits {action : Action} {call : WaitingCall} (h : s.waits action = some call) :
    ∃ o, s.sockets.objects o = some call.object := by
  unfold waits at h
  split at h
  · split at h
    · obtain ⟨object, hObject, rfl⟩ := Option.map_eq_some_iff.mp h
      exact ⟨.main, hObject⟩
    · obtain ⟨object, hObject, rfl⟩ := Option.map_eq_some_iff.mp h
      exact ⟨.registration, hObject⟩
    · cases h
  · next k _ =>
      split at h
      · obtain ⟨object, hObject, rfl⟩ := Option.map_eq_some_iff.mp h
        exact ⟨.session k, hObject⟩
      · obtain ⟨object, hObject, rfl⟩ := Option.map_eq_some_iff.mp h
        exact ⟨.request k, hObject⟩
      · cases h
  · cases h

/-- Where only numbers that fit are in use, all calls stay in bounds. -/
theorem selectsInBounds_of_granted (h : s.sockets.Granted allowed)
    (hFits : ∀ fd, allowed fd → fd < fdSetSize) (action : Action) :
    s.SelectsInBounds action t := by
  intro call hCall
  obtain ⟨o, hObject⟩ := object_of_waits hCall
  have hGranted := h o call.object hObject
  refine ⟨fun fd hFd => ?_, fun fd hFd hLarge => ?_⟩
  · obtain ⟨number, rfl, hAllowed⟩ := WaitingCall.fdSets_granted hGranted hFd
    exact ⟨number, rfl, hFits number hAllowed⟩
  · have hSmall := hFits fd (hGranted.number fd hFd)
    omega

theorem SocketsMove.granted {fd : Option Nat} {sockets : UnixSockets SocketPlace}
    (h : SocketsMove s fd sockets) (hBefore : s.sockets.Granted allowed)
    (hAllowed : ∀ number, fd = some number → allowed number) : sockets.Granted allowed := by
  cases h with
  | same hObjects =>
      intro o object hObject
      exact hBefore o object (hObjects ▸ hObject)
  | created o name => exact hBefore.put o _ (UnixSocket.granted_of_closed rfl rfl)
  | initialized hObject hNew hInitialize => exact hBefore.initialization hObject hNew hAllowed hInitialize
  | accepted hAccept => exact hBefore.accept hAllowed hAccept
  | dropped o => exact hBefore.reset o

section Outside

theorem root_step {action : Action} (h : machine.step s action = some t) : t.root = s.root := by
  cases machine_step h with
  | main hRun =>
      cases hRun with
      | joined _ _ _ hJoin =>
          obtain ⟨sessions, rfl⟩ := hJoin.frame
          rfl
      | _ => rfl
  | cleanup hSweep =>
      cases hSweep with
      | joined _ _ _ hJoin =>
          obtain ⟨sessions, rfl⟩ := hJoin.frame
          rfl
      | _ => rfl
  | worker hWorker => cases hWorker <;> rfl
  | handler | opened | closed => rfl

theorem RunMove.outside {pc : RunPc} (h : RunMove s pc) (hEntering : s.runPc ≠ .entering)
    (hPc : s.runPc.outside = true) : pc.outside = true := by
  cases h with
  | refused | notStarted | notRoot | returns | emptied => rfl
  | entered hEntered => exact absurd hEntered hEntering
  | loops hBefore | leaves hBefore | requested _ hBefore | invalid hBefore | known hBefore | unknown hBefore
  | noSocket hBefore | notInserted hBefore | allJoined hBefore =>
      rw [hBefore] at hPc
      cases hPc

theorem RunStep.outside (h : RunStep s t) (hEntering : s.runPc ≠ .entering)
    (hPc : s.runPc.outside = true) : t.runPc.outside = true := by
  cases h with
  | moved hMove => exact hMove.outside hEntering hPc
  | unlocked hUnlock =>
      cases hUnlock with
      | cleared => rfl
      | notCreated hBefore | notStarted hBefore | responded hBefore =>
          rw [hBefore] at hPc
          cases hPc
  | @mainInitialized _ _ done =>
      cases done <;> rfl
  | mainCreated | cleanupStarted | mainDropped => rfl
  | erased => exact hPc
  | stopped _ _ _ hNext =>
      rcases hNext with rfl | ⟨again, rfl⟩ <;> rfl
  | locked hBefore | cleanupLocked hBefore | accepted hBefore | closed hBefore | created hBefore
  | socketCreated hBefore | socketInitialized hBefore | inserted hBefore | dropped hBefore
  | started hBefore | assigned hBefore | told hBefore | joined hBefore =>
      rw [hBefore] at hPc
      cases hPc

/-- Whoever is not root, or finds a directory at the path of the main socket, does not get
into the loop. -/
def Barred (s : DaemonSessions) : Prop :=
  s.root = false ∨ s.sockets.files mainPath = some .directory

theorem barred_init {root : Bool} {application : Nat → Bool} {stale directory : List UInt8 → Bool}
    (h : ¬(root = true ∧ directory mainPath = false)) :
    (init root application stale directory).Barred := by
  by_cases hRoot : root = true
  · refine .inr ?_
    change leftOver stale directory mainPath = _
    rw [leftOver, if_pos (by simpa [hRoot] using h)]
  · exact .inl (Bool.not_eq_true _ ▸ hRoot)

theorem Barred.step (h : s.Barred) (hFiles : s.FilesKept) {action : Action}
    (hStep : machine.step s action = some t) : t.Barred := by
  rcases h with hRoot | hDirectory
  · exact .inl ((root_step hStep).trans hRoot)
  · exact .inr ((machine_socketsMove hFiles.run hStep).follows.directories mainPath hDirectory)

theorem Barred.root_of_serving (h : s.Barred) (hFiles : s.FilesKept) (hServing : s.runPc.serving = true) :
    s.root = false := by
  apply h.resolve_right
  intro hDirectory
  obtain ⟨_, _, serial, _, _, _, _, _, _, _, _, hBound⟩ := hFiles.mainServes hServing
  rw [hDirectory] at hBound
  cases hBound

theorem Barred.outside (h : s.Barred) (hFiles : s.FilesKept) (hPc : s.runPc.outside = true) {action : Action}
    (hStep : machine.step s action = some t) : t.runPc.outside = true := by
  cases action with
  | main input =>
      have hRun := runStep_of_main hStep
      by_cases hEntering : s.runPc = .entering
      · have hRoot := h.root_of_serving hFiles (by rw [hEntering]; rfl)
        rw [runStep_entering hEntering, hRoot] at hRun
        cases hRun
        rfl
      · exact (runStep_cases hRun).outside hEntering hPc
  | _ =>
      rw [(step_aside (by simp) hStep).1]
      exact hPc

/-- Before the loop and behind it there are no sessions, and so no thread waits. -/
theorem SessionsKept.waits_outside (h : s.SessionsKept) (hPc : s.runPc.outside = true) (action : Action) :
    s.waits action = none := by
  have hFacts : s.runPc.held = none ∧ ∀ pid, s.stored pid = none := by
    have hRun := h.run
    cases hAt : s.runPc <;> rw [hAt] at hRun hPc <;> first | exact ⟨rfl, hRun⟩ | cases hPc
  have hIdle : ∀ k, s.Idle k := by
    intro k
    by_contra hBusy
    obtain ⟨session, hSession, _⟩ := h.worker k hBusy
    cases (hFacts.2 _).symm.trans (h.alive_stored hFacts.1 hSession)
  unfold waits
  split
  · split
    · next hAt =>
        rw [hAt] at hPc
        cases hPc
    · next hAt =>
        rw [hAt] at hPc
        cases hPc
    · rfl
  · next k _ =>
      rcases hIdle k with hNone | hLeft
      · rw [hNone]
      · rw [hLeft]
  · rfl

end Outside

section Runs

variable {kernel : (Nat → Option Opening) → Nat → Prop} {application : Nat → Bool}
  {stale directory : List UInt8 → Bool}

theorem Reaches.granted {root : Bool}
    (h : Reaches (fun _ => allowed) (init root application stale directory) s) :
    s.sockets.Granted allowed := by
  induction h with
  | start => exact nofun
  | step hBefore hKernel hStep ih =>
      have hFiles := (filesKept_of_reachable hBefore.reachable).2
      exact (machine_socketsMove hFiles.run hStep).granted ih hKernel

theorem Reaches.outside {root : Bool} (h : Reaches kernel (init root application stale directory) s)
    (hBarred : ¬(root = true ∧ directory mainPath = false)) : s.Barred ∧ s.runPc.outside = true := by
  induction h with
  | start => exact ⟨barred_init hBarred, rfl⟩
  | step hBefore hKernel hStep ih =>
      have hFiles := (filesKept_of_reachable hBefore.reachable).2
      exact ⟨ih.1.step hFiles hStep, ih.1.outside hFiles ih.2 hStep⟩

/-- Whatever numbers the kernel may give: in all reachable states the calls stay in bounds
exactly if all these numbers are below `FD_SETSIZE`, or the daemon never serves. -/
theorem select_sets_in_bounds_iff (root : Bool) (application : Nat → Bool)
    (stale directory : List UInt8 → Bool) (allowed : Nat → Prop) :
    (∀ s action t, Reaches (fun _ => allowed) (init root application stale directory) s →
      s.ByKernel (fun _ => allowed) action → machine.step s action = some t →
        s.SelectsInBounds action t) ↔
      (root = true → directory mainPath = false → ∀ fd, allowed fd → fd < fdSetSize) := by
  constructor
  · rintro hBounds rfl hDirectory fd hAllowed
    have hClosed : Reaches (fun _ => allowed) (init true application stale directory)
        (init true (Function.update application fd false) stale directory) := reaches_closed fd
    obtain ⟨sockets, hLoop, _, hObjects⟩ :=
      reaches_loop hClosed (Function.update_self ..) hDirectory hAllowed
    have hObject : sockets.objects .main = some ⟨some fd, mainPath, .server, true⟩ := by
      rw [hObjects, Function.update_self]
    let s := { init true (Function.update application fd false) stale directory with
      sockets := sockets, cleanupPc := some .testing, cleanupJoinable := true, runPc := .accepting }
    have hAccepting : Reaches (fun _ => allowed) (init true application stale directory) s :=
      hLoop.silent quiet rfl rfl rfl rfl
    have hStep : machine.step s (.main quiet) = some { s with runPc := .testing } :=
      (step_main rfl).trans (runStep_accepting (s := s) rfl hObject)
    have hFits := hBounds s (.main quiet) _ hAccepting nofun hStep _ (congrArg (Option.map _) hObject)
    obtain ⟨number, hSame, hSmall⟩ := hFits.1 (some fd) (List.mem_singleton.mpr rfl)
    exact Option.some.inj hSame ▸ hSmall
  · intro hFits s action t hReaches _ _
    by_cases hServes : root = true ∧ directory mainPath = false
    · exact selectsInBounds_of_granted hReaches.granted (hFits hServes.1 hServes.2) action
    · have hOutside := (hReaches.outside hServes).2
      have hKept := (filesKept_of_reachable hReaches.reachable).1
      intro call hCall
      rw [hKept.waits_outside hOutside action] at hCall
      cases hCall

/-- The worker of a session waits for the descriptor of the session. -/
theorem Working.waits {k fd : Nat} {pid : Int32} (h : s.Working k pid fd) (hRunning : s.running = true) :
    ∃ t u, machine.step s (.worker k none) = some t ∧ machine.step t (.worker k none) = some u ∧
      t.waits (.worker k none) = some (.accept ⟨some fd, Daemon.channelPath pid, .server, true⟩ 1000) := by
  obtain ⟨⟨session, hSession, hTold⟩, hWorker, hSocket⟩ := h
  let t := s.setWorker k .accepting
  have hTested : s.workerStep k none = some t := by
    simp only [workerStep, hSession, hWorker, hTold, hRunning]
    rfl
  have hSessionAfter : t.sessions k = some session := hSession
  have hSocketAfter : t.sockets.objects (.session k) = _ := hSocket
  have hWorkerAfter : t.workers k = some .accepting :=
    show Function.update s.workers k (some .accepting) k = _ from Function.update_self ..
  have hAccepted : t.workerStep k none = some (t.setWorker k .testing) := by
    simp only [workerStep, hSessionAfter, hWorkerAfter, hSocketAfter]
    rfl
  refine ⟨t, _, hTested, hAccepted, ?_⟩
  simp only [DaemonSessions.waits, hWorkerAfter, hSocketAfter]
  rfl

/-- A thousand and twenty processes register, and the kernel always takes the lowest number.
The socket of the last session is 1024, and its worker waits for it. -/
theorem select_set_overflows :
    ¬∀ s action t, Reaches LowestFree (init true (· < 3) (fun _ => false) fun _ => false) s →
      s.ByKernel LowestFree action → machine.step s action = some t → s.SelectsInBounds action t := by
  intro hClaim
  obtain ⟨s, hReaches, hCrowded⟩ := reaches_crowded (show 1020 ≤ 2 ^ 31 by decide)
  have hLast := hCrowded.working 1019 (by decide)
  obtain ⟨t, u, hTested, hAccepted, hWaits⟩ := hLast.waits hCrowded.ready.running
  have hSilent : ∀ s : DaemonSessions, s.ByKernel LowestFree (.worker 1019 none) := by
    intro s fd hReturned
    simp [returned] at hReturned
  have hBounds := hClaim t _ u (.step hReaches (hSilent s) hTested) (hSilent t) hAccepted
  obtain ⟨number, hSame, hSmall⟩ := (hBounds _ hWaits).1 (some 1024) (List.mem_singleton.mpr rfl)
  cases hSame
  exact absurd hSmall (Nat.lt_irrefl _)

end Runs

end DaemonSessions
end HyCAN
