import HyCAN.Daemon.SessionSteps

/-! What the table says about the channels, in every state that the daemon reaches. A
session is stored before its worker thread is created, and the handler of an
exception leaves it there, so whether all of them are served depends on that one
call. That all of them listen does not. -/
namespace HyCAN.Daemon

/-- The entry belongs to the client, and its socket is at the path of the client's
channel. -/
structure Listening (daemon : Daemon) (pid : Int32) (session : ClientSession) : Prop where
  clientPid : session.clientPid = pid
  channelName : session.channelName = generateClientChannelName pid
  running : session.running = true
  socket : ∃ socket, session.socket = some socket ∧ daemon.sockets (channelPath pid) = some socket

/-- And there is a worker thread that accepts the client's connections. -/
structure Served (daemon : Daemon) (pid : Int32) (session : ClientSession) : Prop extends
    Listening daemon pid session where
  workerThread : session.workerThread = true

def TableListening (daemon : Daemon) : Prop :=
  ∀ pid session, daemon.clientSessions.lookup pid = some session → Listening daemon pid session

def TableServed (daemon : Daemon) : Prop :=
  ∀ pid session, daemon.clientSessions.lookup pid = some session → Served daemon pid session

/-- A client that connects to the channel of that name is served. -/
def ChannelServed (daemon : Daemon) (name : List UInt8) : Prop :=
  ∃ pid session, daemon.clientSessions.lookup pid = some session ∧ session.channelName = name ∧
    Served daemon pid session

def HasSession (daemon : Daemon) (pid : Int32) : Prop :=
  ∃ session, daemon.clientSessions.lookup pid = some session

/-- Where the entries of the table after a step come from. -/
inductive Entry (before : Daemon) (action : Action) (after : Daemon) (pid : Int32)
    (session : ClientSession) : Prop where
  | kept {old : ClientSession} (hOld : before.clientSessions.lookup pid = some old)
      (hSame : session = { old with lastActivity := session.lastActivity })
      (hSocket : after.sockets (channelPath pid) = before.sockets (channelPath pid))
  | new {faults : RegistrationFaults} {workerThread : Bool} (hAction : action = .register pid faults)
      (hNone : before.clientSessions.lookup pid = none)
      (hWorker : workerThread = false → faults.creation = some .threadCreation)
      (hNew : session = before.newSession pid workerThread)
      (hSocket : after.sockets (channelPath pid) = some before.nextSocket)

section Step

variable {before after : Daemon} {action : Action} {pid : Int32} {session : ClientSession}

theorem entry_of_eq (hLookup : before.clientSessions.lookup pid = some session)
    (hSocket : after.sockets (channelPath pid) = before.sockets (channelPath pid)) :
    Entry before action after pid session :=
  .kept hLookup rfl hSocket

/-- The entries after storing a later activity. -/
theorem entry_store {client : Int32} {old : ClientSession}
    (hOld : before.clientSessions.lookup client = some old)
    (h : (before.storeSession client { old with lastActivity := before.now }).clientSessions.lookup
      pid = some session) :
    Entry before action (before.storeSession client { old with lastActivity := before.now }) pid
      session := by
  by_cases hPid : pid = client
  · subst hPid
    rw [storeSession, AList.lookup_insert, Option.some.injEq] at h
    subst h
    exact .kept hOld rfl rfl
  · rw [storeSession, AList.lookup_insert_ne hPid] at h
    exact entry_of_eq h rfl

/-- The entries after a new session. -/
theorem entry_withSession {client : Int32} {faults : RegistrationFaults} {workerThread : Bool}
    (hNone : before.clientSessions.lookup client = none)
    (hWorker : workerThread = false → faults.creation = some .threadCreation)
    (h : (before.withSession client workerThread).clientSessions.lookup pid = some session) :
    Entry before (.register client faults) (before.withSession client workerThread) pid session := by
  by_cases hPid : pid = client
  · subst hPid
    rw [withSession, AList.lookup_insert, Option.some.injEq] at h
    exact .new rfl hNone hWorker h.symm (Function.update_self _ _ _)
  · rw [withSession, AList.lookup_insert_ne hPid] at h
    have hPath : channelPath pid ≠ channelPath client := fun hSame => hPid (channelPath_injective hSame)
    exact entry_of_eq h (Function.update_of_ne hPath _ _)

theorem entry_register {client : Int32} {faults : RegistrationFaults}
    (h : (before.handleClientRegistration client faults).2.clientSessions.lookup pid = some session) :
    Entry before (.register client faults) (before.handleClientRegistration client faults).2 pid
      session := by
  have hRegistered := registered before client faults
  generalize before.handleClientRegistration client faults = handled at h hRegistered
  obtain ⟨response, after⟩ := handled
  cases hRegistered with
  | refreshed hSession => exact entry_store hSession h
  | dropped hNone _ hSessions hSockets =>
      have hLookup : before.clientSessions.lookup pid = some session := hSessions ▸ h
      have hPid : pid ≠ client := by
        intro hSame
        rw [hSame, hNone] at hLookup
        cases hLookup
      exact entry_of_eq hLookup (hSockets _ fun hSame => hPid (channelPath_injective hSame))
  | abandoned hNone hFault => exact entry_withSession hNone (fun _ => hFault) h
  | created hNone => exact entry_withSession hNone (by simp) h

/-- A pass does not remove the path of a session that it keeps. -/
theorem kept_cleanup {alive : Int32 → Bool} (hTable : TableListening before)
    (h : (before.cleanupPass alive).clientSessions.lookup pid = some session) :
    before.clientSessions.lookup pid = some session ∧
      (before.cleanupPass alive).sockets (channelPath pid) = before.sockets (channelPath pid) := by
  rw [lookup_cleanupPass] at h
  obtain ⟨hLookup, hKept⟩ := Option.filter_eq_some_iff.mp h
  apply And.intro hLookup
  apply sockets_cleanupPass
  intro other found hFound hExpired hPath
  have hOther : other = pid := by
    apply channelPath_injective
    rw [← hPath, (hTable other found hFound).channelName]
    rfl
  rw [hOther, hLookup, Option.some.injEq] at hFound
  simp [hFound, hExpired] at hKept

theorem entry_of_step (hTable : TableListening before) (hStep : before.step action = some after)
    (h : after.clientSessions.lookup pid = some session) :
    Entry before action after pid session := by
  cases action with
  | register client faults =>
      cases Option.some.inj hStep
      exact entry_register h
  | serve client =>
      simp only [step, serveRequest] at hStep
      split at hStep
      · cases hStep
      next old hOld =>
        split_ifs at hStep
        cases Option.some.inj hStep
        exact entry_store hOld h
  | cleanup alive =>
      simp only [step] at hStep
      split_ifs at hStep
      cases Option.some.inj hStep
      obtain ⟨hLookup, hSocket⟩ := kept_cleanup hTable h
      exact entry_of_eq hLookup hSocket
  | pass duration =>
      cases Option.some.inj hStep
      exact entry_of_eq h rfl

theorem HasSession.insert {client : Int32}
    (h : HasSession before pid) (hTable : after.clientSessions = before.clientSessions.insert client session) :
    HasSession after pid := by
  obtain ⟨old, hLookup⟩ := h
  by_cases hPid : pid = client
  · exact ⟨session, by rw [hTable, hPid, AList.lookup_insert]⟩
  · exact ⟨old, by rw [hTable, AList.lookup_insert_ne hPid, hLookup]⟩

/-- Neither registrations nor requests remove a session. -/
theorem HasSession.register {client : Int32} {faults : RegistrationFaults}
    (h : HasSession before pid) :
    HasSession (before.handleClientRegistration client faults).2 pid := by
  have hRegistered := registered before client faults
  generalize before.handleClientRegistration client faults = handled at hRegistered
  obtain ⟨sent, after⟩ := handled
  cases hRegistered with
  | dropped _ _ hSessions =>
      obtain ⟨session, hLookup⟩ := h
      exact ⟨session, hSessions ▸ hLookup⟩
  | refreshed | abandoned | created => exact h.insert rfl

theorem HasSession.serve {client : Int32} (h : HasSession before pid)
    (hServe : before.serveRequest client = some after) : HasSession after pid := by
  unfold serveRequest at hServe
  split at hServe
  · cases hServe
  · split_ifs at hServe
    cases Option.some.inj hServe
    exact h.insert rfl

/-- The session of a live process outlasts a pass exactly if it has not been idle for
too long. -/
theorem hasSession_cleanup_iff {alive : Int32 → Bool} (hTable : TableListening before)
    (hAlive : alive pid = true) (h : before.clientSessions.lookup pid = some session) :
    HasSession (before.cleanupPass alive) pid ↔
      before.now - session.lastActivity ≤ sessionTimeout := by
  have hExpired : before.expired alive session =
      decide (before.now - session.lastActivity > sessionTimeout) := by
    simp [expired, (hTable pid session h).clientPid, hAlive]
  rw [HasSession, lookup_cleanupPass, h, ← Option.isSome_iff_exists]
  simp [Option.filter, hExpired]

theorem Entry.listening (h : Entry before action after pid session) (hTable : TableListening before) :
    Listening after pid session := by
  cases h with
  | kept hOld hSame hSocket =>
      have hListening := hTable pid _ hOld
      obtain ⟨socket, hBound, hPath⟩ := hListening.socket
      rw [hSame]
      exact ⟨hListening.clientPid, hListening.channelName, hListening.running, socket, hBound,
        hSocket.trans hPath⟩
  | new _ _ _ hNew hSocket =>
      rw [hNew]
      exact ⟨rfl, rfl, rfl, before.nextSocket, rfl, hSocket⟩

theorem TableListening.step (hTable : TableListening before) (hStep : before.step action = some after) :
    TableListening after :=
  fun _ _ hLookup => (entry_of_step hTable hStep hLookup).listening hTable

/-- The creation of the worker thread of a new client does not throw. -/
def WorkerCreated (before : Daemon) (action : Action) : Prop :=
  ∀ pid faults, action = .register pid faults → before.clientSessions.lookup pid = none →
    faults.creation ≠ some .threadCreation

theorem TableServed.listening (hTable : TableServed before) : TableListening before :=
  fun pid session hLookup => (hTable pid session hLookup).toListening

/-- A step keeps all sessions served exactly if no thread creation throws in it. -/
theorem tableServed_iff (hTable : TableServed before) (hStep : before.step action = some after) :
    TableServed after ↔ WorkerCreated before action := by
  constructor
  · intro hServed pid faults hAction hNone hFault
    subst hAction
    have hAfter : (before.handleClientRegistration pid faults).2 = after := Option.some.inj hStep
    obtain ⟨response, hRegistered⟩ : ∃ response, Registered before pid faults response after :=
      ⟨_, hAfter ▸ registered before pid faults⟩
    cases hRegistered with
    | refreshed hSession => simp [hNone] at hSession
    | dropped _ hOther => exact hOther.2 hFault
    | abandoned =>
        have hLookup := AList.lookup_insert before.clientSessions (a := pid)
          (b := before.newSession pid false)
        have hWorker := (hServed pid _ hLookup).workerThread
        cases hWorker
    | created _ hNoFault => simp [hNoFault] at hFault
  · intro hGuard pid session hLookup
    have hEntry := entry_of_step hTable.listening hStep hLookup
    refine ⟨hEntry.listening hTable.listening, ?_⟩
    cases hEntry with
    | kept hOld hSame =>
        rw [hSame]
        exact (hTable pid _ hOld).workerThread
    | @new faults workerThread hAction hNone hWorker hNew =>
        cases workerThread with
        | true => rw [hNew]; rfl
        | false => exact absurd (hWorker rfl) (hGuard pid faults hAction hNone)

/-- A response is a success and names the channel of the client, who has a session. -/
theorem response_eq {faults : RegistrationFaults} {response : ClientRegisterResponse}
    (hTable : TableListening before)
    (hResponse : (before.handleClientRegistration pid faults).1 = some response) :
    response = .of 0 (generateClientChannelName pid) ∧
      HasSession (before.handleClientRegistration pid faults).2 pid := by
  have hRegistered := registered before pid faults
  generalize before.handleClientRegistration pid faults = handled at *
  obtain ⟨sent, after⟩ := handled
  cases hRegistered with
  | dropped | abandoned => cases hResponse
  | refreshed hSession hSent =>
      simp only at hResponse hSent
      rw [hSent] at hResponse
      split_ifs at hResponse
      cases hResponse
      rw [(hTable pid _ hSession).channelName]
      exact ⟨rfl, _, AList.lookup_insert _⟩
  | created _ _ hSent =>
      simp only at hResponse hSent
      rw [hSent] at hResponse
      split_ifs at hResponse
      cases hResponse
      exact ⟨rfl, _, AList.lookup_insert _⟩

end Step

theorem tableListening_init : TableListening init :=
  fun _ _ hLookup => nomatch hLookup

theorem tableServed_init : TableServed init :=
  fun _ _ hLookup => nomatch hLookup

/-- Whatever fails, all sessions listen at the channels that they are named for. -/
theorem tableListening_of_reachable {daemon : Daemon} (h : machine.Reachable init daemon) :
    TableListening daemon :=
  h.invariant tableListening_init fun _ _ _ hTable hStep => hTable.step hStep

/-- In all states of the run every session is served, and every response of the run
names a channel that is, exactly if the run never stores a session and then fails to
create its worker thread. -/
theorem session_table_iff (actions : List Action) :
    ((∀ daemon, machine.Passes init actions daemon → TableServed daemon) ∧
        ∀ before pid faults after response, machine.Takes init actions before (.register pid faults) after →
          (before.handleClientRegistration pid faults).1 = some response → response.result = 0 →
            ChannelServed after response.channelName) ↔
      ∀ before action after, machine.Takes init actions before action after →
        WorkerCreated before action := by
  have hTables : (∀ daemon, machine.Passes init actions daemon → TableServed daemon) ↔
      ∀ before action after, machine.Takes init actions before action after →
        WorkerCreated before action := by
    apply Transition.Machine.passes_iff_takes tableServed_init
    intro before action after hTakes hTable
    exact tableServed_iff hTable hTakes.step
  constructor
  · intro h
    exact hTables.mp h.1
  · intro hGuard
    have hServed := hTables.mpr hGuard
    refine ⟨hServed, ?_⟩
    intro before pid faults after response hTakes hResponse _
    have hAfter : (before.handleClientRegistration pid faults).2 = after := Option.some.inj hTakes.step
    obtain ⟨hSent, session, hLookup⟩ := response_eq (hServed before hTakes.source).listening hResponse
    rw [hAfter] at hLookup
    have hSession := hServed after hTakes.target pid session hLookup
    refine ⟨pid, session, hLookup, ?_, hSession⟩
    rw [hSent, channelName_response, hSession.channelName]

/-- The thread for a new client cannot be created. The client registers once more,
and gets a success response for a channel without a worker. -/
theorem response_names_unserved_channel :
    ¬∀ (actions : List Action),
      (∀ daemon, machine.Passes init actions daemon → TableServed daemon) ∧
        ∀ before pid faults after response, machine.Takes init actions before (.register pid faults) after →
          (before.handleClientRegistration pid faults).1 = some response → response.result = 0 →
            ChannelServed after response.channelName := by
  intro hClaim
  let failed := (init.handleClientRegistration 7 ⟨some .threadCreation, false⟩).2
  let again := failed.handleClientRegistration 7 ⟨none, false⟩
  have hServed := (hClaim [.register 7 ⟨some .threadCreation, false⟩, .register 7 ⟨none, false⟩]).2
    failed 7 ⟨none, false⟩ again.2 (.of 0 (generateClientChannelName 7))
    ⟨[.register 7 ⟨some .threadCreation, false⟩], [], rfl, rfl, rfl⟩ (by decide +kernel) rfl
  obtain ⟨pid, session, hLookup, hName, hSession⟩ := hServed
  have hPid : pid = 7 := by
    apply channelName_injective
    rw [← hSession.channelName, hName, channelName_response]
  have hWorker : (again.2.clientSessions.lookup 7).map (·.workerThread) = some false := by
    decide +kernel
  rw [← hPid, hLookup] at hWorker
  exact absurd (Option.some.inj hWorker) (by simp [hSession.workerThread])

end HyCAN.Daemon
