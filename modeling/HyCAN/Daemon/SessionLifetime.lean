import HyCAN.Daemon.DaemonSessionsSteps

/-! A session outlives the worker that was started on it. Whoever destroys a session
holds `sessions_mutex_` and has joined the worker before, and the thread object that it
joins is there, since it is stored under the same mutex as the thread is started. -/
namespace HyCAN

open Transition

/-- The main thread holds `sessions_mutex_`. -/
def RunPc.locked : RunPc → Bool
  | .looking _ | .creating _ | .creatingSocket .. | .initializing .. | .storing .. | .dropping _
  | .starting .. | .assigning .. | .responding | .cleaning _ | .joining .. | .clearing => true
  | .creatingMain | .initializingMain | .startingCleanup | .droppingMain | .entering | .testing
  | .accepting | .receiving | .locking _ | .closing | .cleanupLocking | .returned | .stopping _
  | .destroyingSessions | .finished => false

/-- The session that the registration has made and not stored. -/
def RunPc.held : RunPc → Option Nat
  | .creatingSocket _ k | .initializing _ k | .storing _ k | .dropping k => some k
  | _ => none

/-- The session whose worker is started, and its thread object not yet stored. -/
def RunPc.assigned : RunPc → Option Nat
  | .assigning _ k => some k
  | _ => none

/-- The constructor has not started the clean-up thread. -/
def RunPc.constructing : RunPc → Bool
  | .creatingMain | .initializingMain | .startingCleanup => true
  | _ => false

namespace DaemonSessions

/-- The clean-up thread holds `sessions_mutex_`. -/
def sweepLocked : Option SweepPc → Bool
  | some (.passing _) | some (.joining ..) | some (.erasing ..) => true
  | _ => false

variable (s : DaemonSessions)

/-- No thread started on the session is in `client_session_worker`. -/
def Idle (k : Nat) : Prop :=
  s.workers k = none ∨ s.workers k = some .left

def Unstored (pid : Int32) (k : Nat) : Prop :=
  s.stored pid = none ∧ s.workers k = none ∧
    ∃ session, s.sessions k = some session ∧ session.clientPid = pid

/-- What the main thread knows at its program point. -/
def RunFacts : RunPc → Prop
  | .creating pid => s.stored pid = none
  | .creatingSocket pid k | .initializing pid k | .storing pid k => s.Unstored pid k
  | .dropping k => ∃ pid, s.Unstored pid k
  | .starting pid k => s.stored pid = some k ∧ s.workers k = none
  | .cleaning left => ∀ pid k, s.stored pid = some k → pid ∈ left ∨ s.Idle k
  | .joining pid left => ∀ other k, s.stored other = some k → other ∈ pid :: left ∨ s.Idle k
  | .clearing => ∀ pid k, s.stored pid = some k → s.Idle k
  | .creatingMain | .initializingMain | .startingCleanup | .droppingMain | .entering | .returned
  | .stopping _ | .destroyingSessions | .finished => ∀ pid, s.stored pid = none
  | .testing | .accepting | .receiving | .locking _ | .looking _ | .assigning .. | .responding
  | .closing | .cleanupLocking => True

/-- The clean-up thread has joined what it is about to destroy. -/
def SweepFacts : Option SweepPc → Prop
  | some (.erasing pid _) => ∀ k, s.stored pid = some k → s.Idle k
  | _ => True

/-- What holds between the table, the objects, the workers and the mutex in every
reachable state. -/
structure SessionsKept : Prop where
  early : s.runPc.constructing = true → s.cleanupPc = none
  mainLocked : s.runPc.locked = true ↔ s.sessionsMutex = some .main
  sweepLocked : sweepLocked s.cleanupPc = true ↔ s.sessionsMutex = some .cleanup
  stored : ∀ pid k, s.stored pid = some k →
    ∃ session, s.sessions k = some session ∧ session.clientPid = pid
  alive : ∀ k session, s.sessions k = some session →
    s.stored session.clientPid = some k ∨ s.runPc.held = some k
  worker : ∀ k, ¬s.Idle k → ∃ session, s.sessions k = some session ∧
    (session.workerThread = .joinable ∨ s.runPc.assigned = some k)
  unused : ∀ k, s.nextSession ≤ k → s.sessions k = none ∧ s.workers k = none
  run : s.RunFacts s.runPc
  sweep : s.SweepFacts s.cleanupPc

variable {s}

/-- The flags and the sockets do not matter. -/
theorem SessionsKept.frame (h : s.SessionsKept) (running cleanupJoinable : Bool)
    (handler : Option StopPc) (sockets : UnixSockets SocketPlace) :
    SessionsKept { s with
      running := running, cleanupJoinable := cleanupJoinable, handler := handler, sockets := sockets } :=
  ⟨h.early, h.mainLocked, h.sweepLocked, h.stored, h.alive, h.worker, h.unused, h.run, h.sweep⟩

theorem held_of_unlocked {pc : RunPc} (h : pc.locked = false) :
    pc.held = none ∧ pc.assigned = none ∧ ∀ pid k, pc ≠ .starting pid k := by
  cases pc <;> simp_all [RunPc.locked, RunPc.held, RunPc.assigned]

theorem sweepFacts_of_unlocked (h : sweepLocked s.cleanupPc = false) (t : DaemonSessions) :
    t.SweepFacts s.cleanupPc := by
  unfold SweepFacts
  split
  · next hPc => simp [hPc, DaemonSessions.sweepLocked] at h
  · trivial

/-- The two threads are not both in a section that the mutex protects. -/
theorem SessionsKept.sweep_unlocked (h : s.SessionsKept) (hRun : s.runPc.locked = true) :
    DaemonSessions.sweepLocked s.cleanupPc = false := by
  have hMain := h.mainLocked.mp hRun
  by_contra hSweep
  have hCleanup := h.sweepLocked.mp (by simpa using hSweep)
  rw [hMain] at hCleanup
  cases hCleanup

theorem SessionsKept.run_unlocked (h : s.SessionsKept)
    (hSweep : DaemonSessions.sweepLocked s.cleanupPc = true) : s.runPc.locked = false := by
  by_contra hRun
  have hUnlocked := h.sweep_unlocked (by simpa using hRun)
  rw [hSweep] at hUnlocked
  cases hUnlocked

/-- Between the steps of a registration, each session is in the table. -/
theorem SessionsKept.alive_stored (h : s.SessionsKept) (hHeld : s.runPc.held = none) {k : Nat}
    {session : SessionObject} (hSession : s.sessions k = some session) :
    s.stored session.clientPid = some k := by
  apply (h.alive k session hSession).resolve_right
  rw [hHeld]
  exact nofun

/-- And a worker that is in its function can be joined. -/
theorem SessionsKept.joinable (h : s.SessionsKept) (hAssigned : s.runPc.assigned = none) {k : Nat}
    (hBusy : ¬s.Idle k) : ∃ session, s.sessions k = some session ∧ session.workerThread = .joinable := by
  obtain ⟨session, hSession, hThread⟩ := h.worker k hBusy
  refine ⟨session, hSession, hThread.resolve_right ?_⟩
  rw [hAssigned]
  exact nofun

/-- The numbers from `nextSession` on stay unused when a session changes or goes. -/
theorem SessionsKept.unused_update (h : s.SessionsKept) {k j : Nat} {session : SessionObject}
    (hSession : s.sessions k = some session) (after : Option SessionObject) (hUnused : s.nextSession ≤ j) :
    j ≠ k ∧ Function.update s.sessions k after j = none ∧ s.workers j = none := by
  obtain ⟨hNone, hWorker⟩ := h.unused j hUnused
  have hNe : j ≠ k := by
    rintro rfl
    rw [hSession] at hNone
    cases hNone
  exact ⟨hNe, (Function.update_of_ne hNe _ _).trans hNone, hWorker⟩

section Facts

variable {t : DaemonSessions}

/-- What the main thread knows stays true where the table shrinks and workers leave. -/
theorem RunFacts.shrink {pc : RunPc} (h : s.RunFacts pc)
    (hStored : ∀ pid k, t.stored pid = some k → s.stored pid = some k)
    (hIdle : ∀ k, s.Idle k → t.Idle k) (hNone : ∀ k, s.workers k = none → t.workers k = none)
    (hSession : ∀ k session, pc.held = some k → s.sessions k = some session →
      ∃ same, t.sessions k = some same ∧ same.clientPid = session.clientPid)
    (hStarting : ∀ pid k, pc = .starting pid k → s.stored pid = some k → t.stored pid = some k) :
    t.RunFacts pc := by
  have hAbsent : ∀ pid, s.stored pid = none → t.stored pid = none := by
    intro pid hBefore
    by_contra hAfter
    obtain ⟨k, hSome⟩ := Option.ne_none_iff_exists'.mp hAfter
    rw [hStored pid k hSome] at hBefore
    cases hBefore
  have hUnstored : ∀ pid k, pc.held = some k → s.Unstored pid k → t.Unstored pid k := by
    rintro pid k hHeld ⟨hPid, hWorker, session, hObject, rfl⟩
    obtain ⟨same, hSame, hClient⟩ := hSession k session hHeld hObject
    exact ⟨hAbsent _ hPid, hNone k hWorker, same, hSame, hClient⟩
  cases pc with
  | creating pid => exact hAbsent pid h
  | creatingSocket pid k | initializing pid k | storing pid k => exact hUnstored pid k rfl h
  | dropping k =>
      obtain ⟨pid, hBefore⟩ := h
      exact ⟨pid, hUnstored pid k rfl hBefore⟩
  | starting pid k => exact ⟨hStarting pid k rfl h.1, hNone k h.2⟩
  | cleaning left => exact fun pid k hSome => (h pid k (hStored pid k hSome)).imp_right (hIdle k)
  | joining pid left => exact fun other k hSome => (h other k (hStored other k hSome)).imp_right (hIdle k)
  | clearing => exact fun pid k hSome => hIdle k (h pid k (hStored pid k hSome))
  | creatingMain | initializingMain | startingCleanup | droppingMain | entering | returned
  | stopping pc | destroyingSessions | finished => exact fun pid => hAbsent pid (h pid)
  | testing | accepting | receiving | locking pid | looking pid | assigning pid k | responding
  | closing | cleanupLocking => trivial

theorem SweepFacts.shrink {pc : Option SweepPc} (h : s.SweepFacts pc)
    (hStored : ∀ pid k, t.stored pid = some k → s.stored pid = some k)
    (hIdle : ∀ k, s.Idle k → t.Idle k) : t.SweepFacts pc := by
  unfold SweepFacts at h ⊢
  split
  · intro k hSome
    exact hIdle k (h k (hStored _ k hSome))
  · trivial

end Facts

/-- The main thread moves on and leaves the sessions as they are. -/
theorem SessionsKept.moveRun (h : s.SessionsKept) (sockets : UnixSockets SocketPlace) {pc : RunPc}
    {mutex : Option DaemonThread} (hEarly : pc.constructing = true → s.runPc.constructing = true)
    (hLocked : pc.locked = true ↔ mutex = some .main)
    (hSweep : mutex = some .cleanup ↔ s.sessionsMutex = some .cleanup)
    (hHeld : ∀ k, s.runPc.held = some k → pc.held = some k)
    (hAssigned : ∀ k session, s.runPc.assigned = some k → s.sessions k = some session →
      session.workerThread = .joinable)
    (hFacts : s.RunFacts pc) :
    SessionsKept { s with runPc := pc, sessionsMutex := mutex, sockets := sockets } where
  early hPc := h.early (hEarly hPc)
  mainLocked := hLocked
  sweepLocked := h.sweepLocked.trans hSweep.symm
  stored := h.stored
  alive k session hSession := (h.alive k session hSession).imp_right (hHeld k)
  worker k hBusy := by
    obtain ⟨session, hSession, hThread⟩ := h.worker k hBusy
    exact ⟨session, hSession, .inl (hThread.elim id fun hSame => hAssigned k session hSame hSession)⟩
  unused := h.unused
  run := hFacts
  sweep := h.sweep

/-- So it does at a point where it has nothing of a session in its hands. -/
theorem SessionsKept.moveFree (h : s.SessionsKept) (sockets : UnixSockets SocketPlace) {pc : RunPc}
    {mutex : Option DaemonThread} (hNothing : s.runPc.held = none ∧ s.runPc.assigned = none)
    (hEarly : pc.constructing = true → s.runPc.constructing = true)
    (hLocked : pc.locked = true ↔ mutex = some .main)
    (hSweep : mutex = some .cleanup ↔ s.sessionsMutex = some .cleanup) (hFacts : s.RunFacts pc) :
    SessionsKept { s with runPc := pc, sessionsMutex := mutex, sockets := sockets } := by
  obtain ⟨hHeld, hAssigned⟩ := hNothing
  exact h.moveRun sockets hEarly hLocked hSweep (by rw [hHeld]; exact nofun) (by rw [hAssigned]; exact nofun)
    hFacts

theorem SessionsKept.moveSweep (h : s.SessionsKept) {pc : SweepPc} {mutex : Option DaemonThread}
    (hSome : s.cleanupPc ≠ none)
    (hLocked : DaemonSessions.sweepLocked (some pc) = true ↔ mutex = some .cleanup)
    (hMain : mutex = some .main ↔ s.sessionsMutex = some .main) (hFacts : s.SweepFacts (some pc)) :
    SessionsKept { s with cleanupPc := some pc, sessionsMutex := mutex } where
  early hPc := absurd (h.early hPc) hSome
  mainLocked := h.mainLocked.trans hMain.symm
  sweepLocked := hLocked
  stored := h.stored
  alive := h.alive
  worker := h.worker
  unused := h.unused
  run := h.run
  sweep := hFacts

/-- A session keeps its client, and its thread object stands for the worker. -/
theorem SessionsKept.setSession (h : s.SessionsKept) {k : Nat} {session after : SessionObject}
    (hSession : s.sessions k = some session) (hClient : after.clientPid = session.clientPid)
    (hThread : ¬s.Idle k → after.workerThread = .joinable ∨ s.runPc.assigned = some k) :
    (s.setSession k after).SessionsKept := by
  have hAt : ∀ j, j ≠ k → (s.setSession k after).sessions j = s.sessions j := by
    intro j hNe
    exact Function.update_of_ne hNe _ _
  have hSelf : (s.setSession k after).sessions k = some after := Function.update_self ..
  refine ⟨h.early, h.mainLocked, h.sweepLocked, ?_, ?_, ?_, ?_, ?_, h.sweep⟩
  · intro pid j hStored
    obtain ⟨other, hOther, rfl⟩ := h.stored pid j hStored
    rcases eq_or_ne j k with rfl | hNe
    · rw [hSession] at hOther
      cases hOther
      exact ⟨after, hSelf, hClient⟩
    · exact ⟨other, (hAt j hNe).trans hOther, rfl⟩
  · intro j other hOther
    rcases eq_or_ne j k with rfl | hNe
    · rw [hSelf, Option.some.injEq] at hOther
      rw [← hOther, hClient]
      exact h.alive j session hSession
    · exact h.alive j other ((hAt j hNe).symm.trans hOther)
  · intro j hBusy
    rcases eq_or_ne j k with rfl | hNe
    · exact ⟨after, hSelf, hThread hBusy⟩
    · obtain ⟨other, hOther, hJoinable⟩ := h.worker j hBusy
      exact ⟨other, (hAt j hNe).trans hOther, hJoinable⟩
  · intro j hUnused
    exact (h.unused_update hSession (some after) hUnused).2
  · refine h.run.shrink (fun _ _ => id) (fun _ => id) (fun _ => id) ?_ fun _ _ _ => id
    intro j other _ hOther
    rcases eq_or_ne j k with rfl | hNe
    · rw [hSession] at hOther
      cases hOther
      exact ⟨after, hSelf, hClient⟩
    · exact ⟨other, (hAt j hNe).trans hOther, rfl⟩

theorem SessionsKept.tell (h : s.SessionsKept) {k : Nat} {session : SessionObject}
    (hSession : s.sessions k = some session) : (s.tell k session).SessionsKept := by
  refine h.setSession hSession rfl fun hBusy => ?_
  obtain ⟨same, hSame, hThread⟩ := h.worker k hBusy
  rw [hSession] at hSame
  cases hSame
  exact hThread

/-- After the join the worker has left, or there never was one. -/
theorem SessionsKept.join (h : s.SessionsKept) {k : Nat} {session : SessionObject} {u : DaemonSessions}
    (hSession : s.sessions k = some session) (hAssigned : s.runPc.assigned = none)
    (hJoin : JoinStep s k session u) : u.SessionsKept ∧ u.Idle k := by
  cases hJoin with
  | nothing hThread =>
      refine ⟨h, ?_⟩
      by_contra hBusy
      obtain ⟨same, hSame, hJoinable⟩ := h.joinable hAssigned hBusy
      rw [hSession] at hSame
      cases hSame
      exact hThread hJoinable
  | joined hThread hLeft =>
      have hIdle : s.Idle k := .inr hLeft
      exact ⟨h.setSession hSession rfl fun hBusy => absurd hIdle hBusy, hIdle⟩

theorem JoinStep.frame {k : Nat} {session : SessionObject} {u : DaemonSessions}
    (hJoin : JoinStep s k session u) : ∃ sessions, u = { s with sessions := sessions } := by
  cases hJoin with
  | nothing => exact ⟨s.sessions, rfl⟩
  | joined => exact ⟨_, rfl⟩

theorem stored_eraseSession {pid other : Int32} {k j : Nat}
    (h : (s.eraseSession pid k).stored other = some j) : other ≠ pid ∧ s.stored other = some j := by
  change (s.clientSessions.erase pid).lookup other = some j at h
  rcases eq_or_ne other pid with rfl | hNe
  · rw [AList.lookup_erase] at h
    cases h
  · rw [AList.lookup_erase_ne hNe] at h
    exact ⟨hNe, h⟩

/-- A session without worker may go, if the main thread is not about to use it. -/
theorem SessionsKept.erase (h : s.SessionsKept) {pid : Int32} {k : Nat}
    (hStored : s.stored pid = some k) (hIdle : s.Idle k) (hHeld : s.runPc.held = none)
    (hStarting : ∀ other j, s.runPc ≠ .starting other j) : (s.eraseSession pid k).SessionsKept := by
  obtain ⟨session, hSession, rfl⟩ := h.stored pid k hStored
  have hAt : ∀ j, j ≠ k → (s.eraseSession session.clientPid k).sessions j = s.sessions j := by
    intro j hNe
    exact Function.update_of_ne hNe _ _
  have hSelf : (s.eraseSession session.clientPid k).sessions k = none := Function.update_self ..
  refine ⟨h.early, h.mainLocked, h.sweepLocked, ?_, ?_, ?_, ?_, ?_, ?_⟩
  · intro other j hOther
    obtain ⟨hNe, hBefore⟩ := stored_eraseSession hOther
    obtain ⟨object, hObject, rfl⟩ := h.stored other j hBefore
    have hNumber : j ≠ k := by
      rintro rfl
      rw [hSession] at hObject
      cases hObject
      exact hNe rfl
    exact ⟨object, (hAt j hNumber).trans hObject, rfl⟩
  · intro j object hObject
    have hNumber : j ≠ k := by
      rintro rfl
      rw [hSelf] at hObject
      cases hObject
    rw [hAt j hNumber] at hObject
    refine .inl ?_
    have hBefore := h.alive_stored hHeld hObject
    have hNe : object.clientPid ≠ session.clientPid := by
      intro hSame
      rw [hSame, hStored, Option.some.injEq] at hBefore
      exact hNumber hBefore.symm
    exact (AList.lookup_erase_ne hNe).trans hBefore
  · intro j hBusy
    have hNumber : j ≠ k := by
      rintro rfl
      exact hBusy hIdle
    obtain ⟨object, hObject, hThread⟩ := h.worker j hBusy
    exact ⟨object, (hAt j hNumber).trans hObject, hThread⟩
  · intro j hUnused
    exact (h.unused_update hSession none hUnused).2
  · refine h.run.shrink (fun _ _ hOther => (stored_eraseSession hOther).2) (fun _ => id) (fun _ => id)
      ?_ fun other j hPc => absurd hPc (hStarting other j)
    intro j object hSame
    rw [hHeld] at hSame
    cases hSame
  · exact h.sweep.shrink (fun _ _ hOther => (stored_eraseSession hOther).2) fun _ => id

/-- A worker that is in its function moves on. -/
theorem SessionsKept.setWorker (h : s.SessionsKept) {k : Nat} {before : SessionWorkerPc}
    (hWorker : s.workers k = some before) (hBefore : before ≠ .left) (after : SessionWorkerPc) :
    (s.setWorker k after).SessionsKept := by
  have hBusy : ¬s.Idle k := by
    rintro (hNone | hLeft)
    · rw [hWorker] at hNone
      cases hNone
    · rw [hWorker, Option.some.injEq] at hLeft
      exact hBefore hLeft
  have hAt : ∀ j, j ≠ k → (s.setWorker k after).workers j = s.workers j := by
    intro j hNe
    exact Function.update_of_ne hNe _ _
  have hIdle : ∀ j, s.Idle j → (s.setWorker k after).Idle j := by
    intro j hBefore
    have hNe : j ≠ k := by
      rintro rfl
      exact hBusy hBefore
    rwa [Idle, hAt j hNe]
  have hNone : ∀ j, s.workers j = none → (s.setWorker k after).workers j = none := by
    intro j hBefore
    have hNe : j ≠ k := by
      rintro rfl
      exact hBusy (.inl hBefore)
    rwa [hAt j hNe]
  refine ⟨h.early, h.mainLocked, h.sweepLocked, h.stored, h.alive, ?_, ?_, ?_, ?_⟩
  · intro j hAfter
    exact h.worker j fun hBefore => hAfter (hIdle j hBefore)
  · intro j hUnused
    exact ⟨(h.unused j hUnused).1, hNone j (h.unused j hUnused).2⟩
  · exact h.run.shrink (fun _ _ => id) hIdle hNone (fun _ object _ hObject => ⟨object, hObject, rfl⟩)
      fun _ _ _ => id
  · exact h.sweep.shrink (fun _ _ => id) hIdle

section Registration

variable {pid : Int32} {k : Nat}

theorem SessionsKept.created (h : s.SessionsKept) (hPc : s.runPc = .creating pid) :
    SessionsKept { s.setSession s.nextSession ⟨pid, Daemon.generateClientChannelName pid, .null, true⟩ with
      nextSession := s.nextSession + 1
      runPc := .creatingSocket pid s.nextSession } := by
  have hUnlocked := h.sweep_unlocked (by rw [hPc]; rfl)
  have hLocked := h.mainLocked
  have hFacts := h.run
  rw [hPc] at hLocked hFacts
  obtain ⟨hNone, hWorker⟩ := h.unused s.nextSession (Nat.le_refl _)
  have hAt : ∀ j session, s.sessions j = some session → Function.update s.sessions s.nextSession
      (some ⟨pid, Daemon.generateClientChannelName pid, .null, true⟩) j = some session := by
    intro j session hSession
    rw [Function.update_of_ne ?_, hSession]
    rintro rfl
    rw [hNone] at hSession
    cases hSession
  refine ⟨nofun, hLocked, h.sweepLocked, ?_, ?_, ?_, ?_, ?_, sweepFacts_of_unlocked hUnlocked _⟩
  · intro other j hStored
    obtain ⟨session, hSession, hClient⟩ := h.stored other j hStored
    exact ⟨session, hAt j session hSession, hClient⟩
  · intro j session hSession
    rcases eq_or_ne j s.nextSession with rfl | hNe
    · exact .inr rfl
    · refine .inl (h.alive_stored (by rw [hPc]; rfl) ?_)
      exact (Function.update_of_ne hNe _ _).symm.trans hSession
  · intro j hBusy
    obtain ⟨session, hSession, hThread⟩ := h.joinable (by rw [hPc]; rfl) hBusy
    exact ⟨session, hAt j session hSession, .inl hThread⟩
  · intro j hUnused
    have hNe : j ≠ s.nextSession := by
      have hNext : s.nextSession + 1 ≤ j := hUnused
      omega
    exact ⟨(Function.update_of_ne hNe _ _).trans (h.unused j (Nat.le_of_succ_le hUnused)).1,
      (h.unused j (Nat.le_of_succ_le hUnused)).2⟩
  · exact ⟨hFacts, hWorker, _, Function.update_self .., rfl⟩

theorem stored_insert (other : Int32) : ({ s with
    clientSessions := s.clientSessions.insert pid k } : DaemonSessions).stored other =
      if other = pid then some k else s.stored other := by
  unfold stored
  split_ifs with hSame
  · rw [hSame, AList.lookup_insert]
  · rw [AList.lookup_insert_ne hSame]

theorem SessionsKept.inserted (h : s.SessionsKept) (hPc : s.runPc = .storing pid k) :
    SessionsKept { s with
      clientSessions := s.clientSessions.insert pid k, runPc := .starting pid k } := by
  have hUnlocked := h.sweep_unlocked (by rw [hPc]; rfl)
  have hLocked := h.mainLocked
  have hFacts := h.run
  rw [hPc] at hLocked hFacts
  obtain ⟨hNone, hWorker, session, hSession, hClient⟩ := hFacts
  have hStored : ∀ other, ({ s with
      clientSessions := s.clientSessions.insert pid k } : DaemonSessions).stored other =
        if other = pid then some k else s.stored other := stored_insert
  refine ⟨nofun, hLocked, h.sweepLocked, ?_, ?_, ?_, h.unused, ?_, sweepFacts_of_unlocked hUnlocked _⟩
  · intro other j hOther
    change DaemonSessions.stored { s with clientSessions := s.clientSessions.insert pid k } other = _ at hOther
    rw [hStored] at hOther
    split_ifs at hOther with hSame
    · rw [← Option.some.inj hOther, hSame]
      exact ⟨session, hSession, hClient⟩
    · exact h.stored other j hOther
  · intro j object hObject
    refine .inl ((hStored object.clientPid).trans ?_)
    rcases h.alive j object hObject with hBefore | hHeld
    · rw [if_neg, hBefore]
      intro hSame
      rw [hSame, hNone] at hBefore
      cases hBefore
    · rw [hPc, RunPc.held, Option.some.injEq] at hHeld
      subst hHeld
      rw [hSession, Option.some.injEq] at hObject
      rw [← hObject, if_pos hClient]
  · intro j hBusy
    obtain ⟨object, hObject, hThread⟩ := h.joinable (by rw [hPc]; rfl) hBusy
    exact ⟨object, hObject, .inl hThread⟩
  · exact ⟨(hStored pid).trans (if_pos rfl), hWorker⟩

/-- On the error paths no worker was started yet. -/
theorem SessionsKept.dropped (h : s.SessionsKept) (hPc : s.runPc = .dropping k) :
    SessionsKept { s.dropSession k with runPc := .closing, sessionsMutex := none } := by
  have hUnlocked := h.sweep_unlocked (by rw [hPc]; rfl)
  have hFacts := h.run
  rw [hPc] at hFacts
  obtain ⟨pid, hNone, hWorker, session, hSession, hClient⟩ := hFacts
  have hAt : ∀ j, j ≠ k → Function.update s.sessions k none j = s.sessions j := by
    intro j hNe
    exact Function.update_of_ne hNe _ _
  have hSelf : Function.update s.sessions k none k = none := Function.update_self ..
  have hSweep : DaemonSessions.sweepLocked s.cleanupPc = true ↔
      (none : Option DaemonThread) = some .cleanup := by simp [hUnlocked]
  refine ⟨nofun, by simp [RunPc.locked], hSweep, ?_, ?_, ?_, ?_, trivial, sweepFacts_of_unlocked hUnlocked _⟩
  · intro other j hStored
    obtain ⟨object, hObject, rfl⟩ := h.stored other j hStored
    refine ⟨object, (hAt j ?_).trans hObject, rfl⟩
    rintro rfl
    rw [hSession, Option.some.injEq] at hObject
    have hSame : s.stored pid = some j := by rw [← hClient, hObject]; exact hStored
    rw [hNone] at hSame
    cases hSame
  · intro j object hObject
    have hNe : j ≠ k := by
      rintro rfl
      cases hObject.symm.trans hSelf
    refine .inl ((h.alive j object ((hAt j hNe).symm.trans hObject)).resolve_right ?_)
    rw [hPc, RunPc.held, Option.some.injEq]
    exact hNe.symm
  · intro j hBusy
    obtain ⟨object, hObject, hThread⟩ := h.joinable (by rw [hPc]; rfl) hBusy
    have hNe : j ≠ k := by
      rintro rfl
      exact hBusy (.inl hWorker)
    exact ⟨object, (hAt j hNe).trans hObject, .inl hThread⟩
  · intro j hUnused
    exact (h.unused_update hSession none hUnused).2

/-- The worker may run at once, but nobody destroys the session before its thread object
is stored. -/
theorem SessionsKept.started (h : s.SessionsKept) (hPc : s.runPc = .starting pid k) :
    SessionsKept { s.setWorker k .testing with runPc := .assigning pid k } := by
  have hUnlocked := h.sweep_unlocked (by rw [hPc]; rfl)
  have hLocked := h.mainLocked
  have hFacts := h.run
  rw [hPc] at hLocked hFacts
  obtain ⟨hStored, hWorker⟩ := hFacts
  obtain ⟨session, hSession, hClient⟩ := h.stored pid k hStored
  refine ⟨nofun, hLocked, h.sweepLocked, h.stored, ?_, ?_, ?_, trivial, sweepFacts_of_unlocked hUnlocked _⟩
  · intro j object hObject
    exact .inl (h.alive_stored (by rw [hPc]; rfl) hObject)
  · intro j hBusy
    rcases eq_or_ne j k with rfl | hNe
    · exact ⟨session, hSession, .inr rfl⟩
    · have hBefore : ¬s.Idle j := by
        intro hIdle
        exact hBusy (by simpa [Idle, DaemonSessions.setWorker, hNe] using hIdle)
      obtain ⟨object, hObject, hThread⟩ := h.joinable (by rw [hPc]; rfl) hBefore
      exact ⟨object, hObject, .inl hThread⟩
  · intro j hUnused
    obtain ⟨hNe, _, hIdle⟩ := h.unused_update hSession none hUnused
    exact ⟨(h.unused j hUnused).1, (Function.update_of_ne hNe _ _).trans hIdle⟩

theorem SessionsKept.assigned (h : s.SessionsKept) {session : SessionObject}
    (hPc : s.runPc = .assigning pid k) (hSession : s.sessions k = some session) :
    SessionsKept { s.setSession k { session with workerThread := .joinable } with
      runPc := .responding } := by
  have hStored : (s.setSession k { session with workerThread := .joinable }).SessionsKept :=
    h.setSession hSession rfl fun _ => .inl rfl
  have hLocked := hStored.mainLocked
  refine hStored.moveRun s.sockets nofun ?_ Iff.rfl ?_ ?_ trivial
  · rw [← hLocked, show (s.setSession k _).runPc = _ from hPc]
    rfl
  · intro j hHeld
    rw [show (s.setSession k _).runPc = _ from hPc] at hHeld
    cases hHeld
  · intro j object hAssigned hObject
    rw [show (s.setSession k _).runPc = _ from hPc, RunPc.assigned, Option.some.injEq] at hAssigned
    subst hAssigned
    rw [show (s.setSession k _).sessions k = _ from Function.update_self .., Option.some.injEq] at hObject
    rw [← hObject]

end Registration

/-- The moves of the main thread outside the mutex, and those inside it that keep the
mutex. -/
theorem SessionsKept.move (h : s.SessionsKept) {pc : RunPc} (hMove : RunMove s pc) :
    SessionsKept { s with runPc := pc } := by
  have hLocked := h.mainLocked
  have hFacts := h.run
  cases hMove with
  | refused hPc | notStarted hPc | entered hPc | notRoot hPc | loops hPc | leaves hPc | invalid hPc
  | known hPc | returns hPc | emptied hPc | requested _ hPc =>
      rw [hPc] at hLocked hFacts
      refine h.moveFree s.sockets (by rw [hPc]; exact ⟨rfl, rfl⟩) nofun hLocked Iff.rfl ?_
      first | exact hFacts | trivial
  | unknown hPc hNone =>
      rw [hPc] at hLocked
      exact h.moveFree s.sockets (by rw [hPc]; exact ⟨rfl, rfl⟩) nofun hLocked Iff.rfl hNone
  | noSocket hPc | notInserted hPc =>
      rw [hPc] at hLocked hFacts
      exact h.moveRun s.sockets nofun hLocked Iff.rfl (by simp [hPc, RunPc.held])
        (by simp [hPc, RunPc.assigned]) ⟨_, hFacts⟩
  | allJoined hPc =>
      rw [hPc] at hLocked hFacts
      refine h.moveFree s.sockets (by rw [hPc]; exact ⟨rfl, rfl⟩) nofun hLocked Iff.rfl ?_
      intro pid k hStored
      exact (hFacts pid k hStored).resolve_left (List.not_mem_nil)

theorem stored_eq_none (hEmpty : s.clientSessions.keys = []) (pid : Int32) : s.stored pid = none := by
  rw [stored, AList.lookup_eq_none, AList.mem_keys, hEmpty]
  exact List.not_mem_nil

theorem SessionsKept.unlock (h : s.SessionsKept) {pc : RunPc} (hUnlock : RunUnlock s pc) :
    SessionsKept { s with runPc := pc, sessionsMutex := none } := by
  have hMutex : s.runPc.locked = true → (none = some DaemonThread.cleanup ↔
      s.sessionsMutex = some .cleanup) := by
    intro hLocked
    rw [h.mainLocked.mp hLocked]
    simp
  cases hUnlock with
  | notCreated hPc | notStarted hPc | responded hPc =>
      exact h.moveFree s.sockets (by rw [hPc]; exact ⟨rfl, rfl⟩) nofun (by simp [RunPc.locked])
        (hMutex (by rw [hPc]; rfl)) trivial
  | cleared hPc hEmpty =>
      exact h.moveFree s.sockets (by rw [hPc]; exact ⟨rfl, rfl⟩) nofun (by simp [RunPc.locked])
        (hMutex (by rw [hPc]; rfl)) (stored_eq_none hEmpty)

theorem SessionsKept.runStep (h : s.SessionsKept) {t : DaemonSessions} (hRun : RunStep s t) :
    t.SessionsKept := by
  have hLocked := h.mainLocked
  have hFacts := h.run
  cases hRun with
  | moved hMove => exact h.move hMove
  | unlocked hUnlock => exact h.unlock hUnlock
  | locked hPc hFree =>
      exact h.moveFree s.sockets (by rw [hPc]; exact ⟨rfl, rfl⟩) nofun (by simp [RunPc.locked])
        (by simp [hFree]) trivial
  | cleanupLocked hPc hFree hOrder =>
      refine h.moveFree s.sockets (by rw [hPc]; exact ⟨rfl, rfl⟩) nofun (by simp [RunPc.locked])
        (by simp [hFree]) ?_
      intro pid k hStored
      have hKey : pid ∈ s.clientSessions.keys := by
        apply AList.mem_keys.mp
        apply AList.lookup_isSome.mp
        rw [show s.clientSessions.lookup pid = _ from hStored]
        rfl
      exact .inl (hOrder.mem_iff.mpr hKey)
  | mainCreated hPc =>
      rw [hPc] at hLocked hFacts
      exact h.moveFree _ (by rw [hPc]; exact ⟨rfl, rfl⟩) (fun _ => by rw [hPc]; rfl) hLocked Iff.rfl hFacts
  | mainDropped hPc | closed hPc | socketCreated hPc hSession =>
      rw [hPc] at hLocked hFacts
      exact h.moveRun _ nofun hLocked Iff.rfl (by simp [hPc, RunPc.held]) (by simp [hPc, RunPc.assigned])
        hFacts
  | mainInitialized hPc hObject hInitialize =>
      rw [hPc] at hLocked hFacts
      refine h.moveFree _ (by rw [hPc]; exact ⟨rfl, rfl⟩) (fun _ => by rw [hPc]; rfl) ?_ Iff.rfl ?_
      · rw [← hLocked]
        split_ifs <;> rfl
      · split_ifs <;> exact hFacts
  | accepted hPc hObject hAccept =>
      rw [hPc] at hLocked
      refine h.moveFree _ (by rw [hPc]; exact ⟨rfl, rfl⟩) ?_ ?_ Iff.rfl ?_
      · split_ifs <;> nofun
      · rw [← hLocked]
        split_ifs <;> rfl
      · split_ifs <;> trivial
  | socketInitialized hPc hObject hInitialize =>
      rw [hPc] at hLocked hFacts
      refine h.moveRun _ ?_ ?_ Iff.rfl ?_ (by simp [hPc, RunPc.assigned]) ?_
      · split_ifs <;> nofun
      · rw [← hLocked]
        split_ifs <;> rfl
      · rw [hPc]
        split_ifs <;> exact fun _ => id
      · split_ifs
        · exact hFacts
        · exact ⟨_, hFacts⟩
  | cleanupStarted hPc =>
      rw [hPc] at hLocked hFacts
      have hNone := h.early (by rw [hPc]; rfl)
      have hMutex := h.sweepLocked
      rw [hNone] at hMutex
      exact ⟨nofun, hLocked, hMutex, h.stored,
        fun k session hSession => .inl (h.alive_stored (by rw [hPc]; rfl) hSession),
        fun k hBusy => (h.joinable (by rw [hPc]; rfl) hBusy).imp fun _ => And.imp_right .inl, h.unused,
        hFacts, trivial⟩
  | created hPc => exact h.created hPc
  | inserted hPc => exact h.inserted hPc
  | dropped hPc => exact h.dropped hPc
  | started hPc => exact h.started hPc
  | assigned hPc hSession => exact h.assigned hPc hSession
  | @told pid left k session hPc hStored hSession =>
      have hTold := h.tell hSession
      have hSame : (s.tell k session).runPc = .cleaning (pid :: left) := hPc
      have hKnown := hTold.run
      rw [hSame] at hKnown
      rw [hPc] at hLocked
      exact hTold.moveFree s.sockets (by rw [hSame]; exact ⟨rfl, rfl⟩) nofun hLocked Iff.rfl hKnown
  | @joined pid left k session u hPc hStored hSession hJoin =>
      obtain ⟨hJoined, hIdle⟩ := h.join hSession (by rw [hPc]; rfl) hJoin
      obtain ⟨sessions, rfl⟩ := hJoin.frame
      have hKnown := hJoined.run
      simp only [hPc] at hKnown
      rw [hPc] at hLocked
      refine hJoined.moveFree s.sockets (by rw [hPc]; exact ⟨rfl, rfl⟩) nofun hLocked Iff.rfl ?_
      intro other j hOther
      rcases hKnown other j hOther with hMem | hLeft
      · rcases List.mem_cons.mp hMem with rfl | hLater
        · have hNumber : j = k := Option.some.inj (hOther.symm.trans hStored)
          exact .inr (hNumber ▸ hIdle)
        · exact .inl hLater
      · exact .inr hLeft
  | @erased pid k hPc hStored =>
      rcases hPc with hPc | hPc
      · rw [hPc] at hFacts
        exact h.erase hStored (hFacts pid k hStored) (by rw [hPc]; rfl) (by simp [hPc])
      · rw [hPc] at hFacts
        cases (hFacts pid).symm.trans hStored
  | stopped running cleanupJoinable hPc hNext =>
      rw [hPc] at hLocked hFacts
      have hFramed := h.frame running cleanupJoinable s.handler s.sockets
      rcases hNext with rfl | ⟨again, rfl⟩
      · exact hFramed.moveFree s.sockets (by rw [hPc]; exact ⟨rfl, rfl⟩) nofun hLocked Iff.rfl hFacts
      · exact hFramed.moveFree s.sockets (by rw [hPc]; exact ⟨rfl, rfl⟩) nofun hLocked Iff.rfl hFacts

theorem SessionsKept.sweepStep (h : s.SessionsKept) {t : DaemonSessions} (hSweep : SweepStep s t) :
    t.SessionsKept := by
  have hLocked := h.sweepLocked
  have hFacts := h.sweep
  cases hSweep with
  | moved hMove =>
      cases hMove with
      | loops hPc | exits hPc | wakes hPc | kept hPc =>
          rw [hPc] at hLocked
          exact h.moveSweep (by simp [hPc]) hLocked Iff.rfl trivial
  | locked hPc hFree =>
      exact h.moveSweep (by simp [hPc]) (by simp [DaemonSessions.sweepLocked]) (by simp [hFree]) trivial
  | unlocked hPc =>
      have hMutex := h.sweepLocked.mp (by rw [hPc]; rfl)
      exact h.moveSweep (by simp [hPc]) (by simp [DaemonSessions.sweepLocked]) (by simp [hMutex]) trivial
  | @told pid left k session hPc hStored hSession =>
      have hTold := h.tell hSession
      rw [hPc] at hLocked
      have hSome : (s.tell k session).cleanupPc ≠ none := by
        rw [show (s.tell k session).cleanupPc = _ from hPc]
        simp
      exact hTold.moveSweep hSome hLocked Iff.rfl trivial
  | @joined pid left k session u hPc hStored hSession hJoin =>
      have hAssigned := (held_of_unlocked (h.run_unlocked (by rw [hPc]; rfl))).2.1
      obtain ⟨hJoined, hIdle⟩ := h.join hSession hAssigned hJoin
      obtain ⟨sessions, rfl⟩ := hJoin.frame
      rw [hPc] at hLocked
      refine hJoined.moveSweep (by simp [hPc]) hLocked Iff.rfl ?_
      intro j hOther
      have hNumber : j = k := Option.some.inj (hOther.symm.trans hStored)
      exact hNumber ▸ hIdle
  | @erased pid left k hPc hStored =>
      obtain ⟨hHeld, _, hStarting⟩ := held_of_unlocked (h.run_unlocked (by rw [hPc]; rfl))
      rw [hPc] at hLocked hFacts
      have hErased := h.erase hStored (hFacts k hStored) hHeld hStarting
      have hSome : (s.eraseSession pid k).cleanupPc ≠ none := by
        rw [show (s.eraseSession pid k).cleanupPc = _ from hPc]
        simp
      exact hErased.moveSweep hSome hLocked Iff.rfl trivial

theorem SessionsKept.workerStep (h : s.SessionsKept) {k : Nat} {t : DaemonSessions}
    (hWorker : WorkerStep s k t) : t.SessionsKept := by
  cases hWorker with
  | tested pc hPc => exact h.setWorker hPc (by decide) pc
  | @accepted object outcome came sockets hPc hObject hAccept =>
      exact (h.setWorker hPc (by decide) _).frame s.running s.cleanupJoinable s.handler sockets
  | served hPc =>
      exact (h.setWorker hPc (by decide) .testing).frame s.running s.cleanupJoinable s.handler _

theorem SessionsKept.step (h : s.SessionsKept) {t : DaemonSessions} (hStep : Step s t) :
    t.SessionsKept := by
  cases hStep with
  | main hRun => exact h.runStep hRun
  | handler running cleanupJoinable handler => exact h.frame running cleanupJoinable handler s.sockets
  | cleanup hSweep => exact h.sweepStep hSweep
  | worker hWorker => exact h.workerStep hWorker
  | opened hFree => exact h.frame s.running s.cleanupJoinable s.handler _
  | closed hForeign => exact h.frame s.running s.cleanupJoinable s.handler _

section Runs

variable (root : Bool) (application : Nat → Bool) (stale directory : List UInt8 → Bool)

theorem sessionsKept_init : (init root application stale directory).SessionsKept where
  early _ := rfl
  mainLocked := by simp [init, RunPc.locked]
  sweepLocked := by simp [init, DaemonSessions.sweepLocked]
  stored pid k hStored := by simp [init, stored] at hStored
  alive k session hSession := by cases hSession
  worker k hBusy := absurd (.inl rfl) hBusy
  unused k _ := ⟨rfl, rfl⟩
  run pid := by simp [init, stored]
  sweep := trivial

theorem sessionsKept_of_reachable {root : Bool} {application : Nat → Bool}
    {stale directory : List UInt8 → Bool}
    (h : machine.Reachable (init root application stale directory) s) : s.SessionsKept :=
  h.invariant (sessionsKept_init root application stale directory) fun _ _ _ hKept hStep =>
    hKept.step (machine_step hStep)

end Runs

/-- The step destroys no session. -/
def Survives (s t : DaemonSessions) : Prop :=
  ∀ k, s.sessions k ≠ none → t.sessions k ≠ none

/-- It destroys this one alone, and no worker moves. -/
def Destroys (s t : DaemonSessions) (k : Nat) : Prop :=
  t.workers = s.workers ∧ ∀ j, j ≠ k → t.sessions j = s.sessions j

theorem survives_setSession (s : DaemonSessions) (k : Nat) (session : SessionObject) :
    Survives s (s.setSession k session) := by
  intro j hBefore
  rcases eq_or_ne j k with rfl | hNe
  · simp [DaemonSessions.setSession]
  · simpa [DaemonSessions.setSession, hNe] using hBefore

theorem destroys_dropSession (s : DaemonSessions) (k : Nat) : Destroys s (s.dropSession k) k :=
  ⟨rfl, fun _ hNe => Function.update_of_ne hNe _ _⟩

theorem JoinStep.survives {k : Nat} {session : SessionObject} {u : DaemonSessions}
    (hJoin : JoinStep s k session u) : Survives s u := by
  cases hJoin with
  | nothing => exact fun _ => id
  | joined => exact survives_setSession s k _

theorem SessionsKept.runStep_destroys (h : s.SessionsKept) {t : DaemonSessions} (hRun : RunStep s t) :
    Survives s t ∨ ∃ k, s.Idle k ∧ Destroys s t k := by
  have hFacts := h.run
  cases hRun with
  | @dropped k hPc =>
      rw [hPc] at hFacts
      obtain ⟨pid, _, hWorker, _⟩ := hFacts
      exact .inr ⟨k, .inl hWorker, destroys_dropSession s k⟩
  | @erased pid k hPc hStored =>
      refine .inr ⟨k, ?_, destroys_dropSession s k⟩
      rcases hPc with hPc | hPc
      · rw [hPc] at hFacts
        exact hFacts pid k hStored
      · rw [hPc] at hFacts
        cases (hFacts pid).symm.trans hStored
  | created | assigned | told => exact .inl (survives_setSession s _ _)
  | joined _ _ _ hJoin => exact .inl hJoin.survives
  | moved | unlocked | locked | cleanupLocked | mainCreated | mainInitialized | cleanupStarted
  | mainDropped | accepted | closed | socketCreated | socketInitialized | inserted | started | stopped =>
      exact .inl fun _ => id

theorem SessionsKept.step_destroys (h : s.SessionsKept) {t : DaemonSessions} (hStep : Step s t) :
    Survives s t ∨ ∃ k, s.Idle k ∧ Destroys s t k := by
  cases hStep with
  | main hRun => exact h.runStep_destroys hRun
  | cleanup hSweep =>
      have hFacts := h.sweep
      cases hSweep with
      | @erased pid left k hPc hStored =>
          rw [hPc] at hFacts
          exact .inr ⟨k, hFacts k hStored, destroys_dropSession s k⟩
      | told => exact .inl (survives_setSession s _ _)
      | joined _ _ _ hJoin => exact .inl hJoin.survives
      | moved | locked | unlocked => exact .inl fun _ => id
  | worker hWorker =>
      cases hWorker with
      | tested | accepted | served => exact .inl fun _ => id
  | handler | opened | closed => exact .inl fun _ => id

/-- In every run: a worker that is in its function has its session, and whatever step
destroys a session, no worker of it is in its function, before and after. -/
theorem sessions_outlive_workers (root : Bool) (application : Nat → Bool)
    (stale directory : List UInt8 → Bool) {s : DaemonSessions}
    (hReachable : machine.Reachable (init root application stale directory) s) :
    (∀ k, ¬s.Idle k → ∃ session, s.sessions k = some session) ∧
      ∀ action t, machine.step s action = some t → ∀ k session, s.sessions k = some session →
        t.sessions k = none → s.Idle k ∧ t.Idle k := by
  have h := sessionsKept_of_reachable hReachable
  refine ⟨?_, ?_⟩
  · intro k hBusy
    obtain ⟨session, hSession, _⟩ := h.worker k hBusy
    exact ⟨session, hSession⟩
  · intro action t hStep k session hSession hGone
    rcases h.step_destroys (machine_step hStep) with hSurvives | ⟨j, hIdle, hWorkers, hOthers⟩
    · exact absurd hGone (hSurvives k (by simp [hSession]))
    · have hSame : k = j := by
        by_contra hNe
        rw [hOthers k hNe, hSession] at hGone
        cases hGone
      subst hSame
      refine ⟨hIdle, ?_⟩
      rwa [Idle, hWorkers]

/-- Nothing fails, and nothing comes in. -/
def quiet : RunInput :=
  ⟨false, .socketFails, none, none, []⟩

/-- The daemon starts on descriptor 3, and a process registers and gets a session on
descriptor 5. -/
def registered (pid : Int32) : List Action :=
  [.main quiet, .main { quiet with outcome := .done 3 }, .main quiet, .main quiet, .main quiet,
    .main { quiet with accepted := some 4 }, .main { quiet with request := some pid }] ++
  List.replicate 4 (.main quiet) ++ [.main { quiet with outcome := .done 5 }] ++
  List.replicate 5 (.main quiet)

/-- The process dies, and a pass of the clean-up thread is about to erase the session. -/
def joined (pid : Int32) : List Action :=
  registered pid ++ [.cleanup [] false, .cleanup [] false, .cleanup [pid] false,
    .worker 0 none, .cleanup [] true, .worker 0 none, .worker 0 none, .cleanup [] false]

theorem sessions_outlive_workers_pid7 : ∃ s t : DaemonSessions,
    machine.run (init true (· < 3) (fun _ => false) fun _ => false) (joined 7) = some s ∧
      machine.step s (.cleanup [] false) = some t ∧ t.sessions 0 = none ∧ s.Idle 0 ∧ t.Idle 0 := by
  obtain ⟨s, hRun⟩ : ∃ s, machine.run (init true (· < 3) (fun _ => false) fun _ => false)
      (joined 7) = some s := ⟨_, rfl⟩
  have hSession : ∃ session, s.sessions 0 = some session := by
    cases hRun
    exact ⟨_, rfl⟩
  have hStep : ∃ t, machine.step s (.cleanup [] false) = some t ∧ t.sessions 0 = none := by
    cases hRun
    exact ⟨_, rfl, rfl⟩
  obtain ⟨session, hSession⟩ := hSession
  obtain ⟨t, hStep, hGone⟩ := hStep
  have hIdle := (sessions_outlive_workers true _ _ _ ⟨_, hRun⟩).2 _ t hStep 0 session hSession hGone
  exact ⟨s, t, hRun, hStep, hGone, hIdle⟩

end DaemonSessions
end HyCAN
