import HyCAN.Daemon.Session

/-! What registrations and clean-up passes do to the table and to the socket paths. -/
namespace HyCAN.Daemon

variable {daemon : Daemon} {pid other : Int32} {session : ClientSession}

/-- The path of a client's channel. -/
def channelPath (pid : Int32) : List UInt8 :=
  socketPath (generateClientChannelName pid)

theorem channelName_injective : Function.Injective generateClientChannelName := by
  intro first second hSame
  have hText : Decimal.text first.toInt = Decimal.text second.toInt := List.append_cancel_left hSame
  exact Int32.toInt_inj.mp (Decimal.text_injective hText)

theorem channelPath_injective : Function.Injective channelPath :=
  fun _ _ hSame => channelName_injective (List.append_cancel_left hSame)

theorem zero_not_mem_channelName (pid : Int32) : 0 ∉ generateClientChannelName pid := by
  have hText := Decimal.zero_not_mem_text pid.toInt
  have hPrefix : 0 ∉ ascii "HyCAN_Client_" := by decide +kernel
  simp [generateClientChannelName, hText, hPrefix]

theorem length_channelName_le (pid : Int32) : (generateClientChannelName pid).length ≤ 24 := by
  have hLower := pid.le_toInt
  have hUpper := pid.toInt_lt
  have hText : (Decimal.text pid.toInt).length ≤ 10 + 1 := Decimal.length_text_le (by omega) (by omega)
  have hPrefix : (ascii "HyCAN_Client_").length = 13 := by decide +kernel
  rw [generateClientChannelName, List.length_append]
  omega

/-- The response has room for the name of any client's channel. -/
theorem channelName_response (pid : Int32) :
    (ClientRegisterResponse.of 0 (generateClientChannelName pid)).channelName =
      generateClientChannelName pid := by
  have hLength := length_channelName_le pid
  exact ClientRegisterResponse.channelName_of (zero_not_mem_channelName pid) (by omega)

/-- So has the address of a socket for its path. -/
theorem length_channelPath_lt (pid : Int32) : (channelPath pid).length < 108 := by
  have hLength := length_channelName_le pid
  have hPrefix : (ascii "/run/hycan_").length = 11 := by decide +kernel
  rw [channelPath, socketPath, List.length_append]
  omega

/-- The session of a client that registers now. -/
def newSession (daemon : Daemon) (pid : Int32) (workerThread : Bool) : ClientSession :=
  ⟨pid, generateClientChannelName pid, some daemon.nextSocket, workerThread, daemon.now, true⟩

/-- The daemon with this session in the table and its socket at its path. -/
def withSession (daemon : Daemon) (pid : Int32) (workerThread : Bool) : Daemon :=
  { daemon with
    clientSessions := daemon.clientSessions.insert pid (daemon.newSession pid workerThread)
    sockets := Function.update daemon.sockets (channelPath pid) (some daemon.nextSocket)
    nextSocket := daemon.nextSocket + 1 }

/-- The ways through `handle_client_registration`. -/
inductive Registered (daemon : Daemon) (pid : Int32) (faults : RegistrationFaults) :
    Option ClientRegisterResponse → Daemon → Prop where
  | refreshed {session : ClientSession} {response : Option ClientRegisterResponse}
      (hSession : daemon.clientSessions.lookup pid = some session)
      (hResponse : response = if faults.sendFails then none else some (.of 0 session.channelName)) :
      Registered daemon pid faults response
        (daemon.storeSession pid { session with lastActivity := daemon.now })
  | dropped {after : Daemon} (hNone : daemon.clientSessions.lookup pid = none)
      (hFault : faults.creation ≠ none ∧ faults.creation ≠ some .threadCreation)
      (hSessions : after.clientSessions = daemon.clientSessions)
      (hSockets : ∀ path, path ≠ channelPath pid → after.sockets path = daemon.sockets path) :
      Registered daemon pid faults none after
  | abandoned (hNone : daemon.clientSessions.lookup pid = none)
      (hFault : faults.creation = some .threadCreation) :
      Registered daemon pid faults none (daemon.withSession pid false)
  | created {response : Option ClientRegisterResponse}
      (hNone : daemon.clientSessions.lookup pid = none) (hFault : faults.creation = none)
      (hResponse : response =
        if faults.sendFails then none else some (.of 0 (generateClientChannelName pid))) :
      Registered daemon pid faults response (daemon.withSession pid true)

theorem initializeSocket_ok (daemon : Daemon) (pid : Int32) :
    daemon.initializeSocket (generateClientChannelName pid) false =
      (some daemon.nextSocket, { daemon with
        sockets := Function.update daemon.sockets (channelPath pid) (some daemon.nextSocket)
        nextSocket := daemon.nextSocket + 1 }) := by
  have hLength : ¬108 ≤ (socketPath (generateClientChannelName pid)).length :=
    Nat.not_le.mpr (length_channelPath_lt pid)
  simp [initializeSocket, hLength, channelPath]

/-- What `createSession` comes to for each fault. -/
theorem createSession_ok (daemon : Daemon) (pid : Int32) :
    daemon.createSession pid none = (true, daemon.withSession pid true) := by
  simp [createSession, initializeSocket_ok, storeSession, withSession, newSession]

theorem createSession_threadCreation (daemon : Daemon) (pid : Int32) :
    daemon.createSession pid (some .threadCreation) = (false, daemon.withSession pid false) := by
  simp [createSession, initializeSocket_ok, storeSession, withSession, newSession]

theorem createSession_fault (daemon : Daemon) (pid : Int32) {fault : RegistrationFault}
    (hFault : fault ≠ .threadCreation) :
    ∃ after, daemon.createSession pid (some fault) = (false, after) ∧
      after.clientSessions = daemon.clientSessions ∧
      ∀ path, path ≠ channelPath pid → after.sockets path = daemon.sockets path := by
  cases fault with
  | threadCreation => exact absurd rfl hFault
  | sessionAlloc | socketAlloc => exact ⟨daemon, by simp [createSession], rfl, fun _ _ => rfl⟩
  | initializeFails =>
      refine ⟨{ daemon with sockets := Function.update daemon.sockets (channelPath pid) none },
        by simp [createSession, initializeSocket, channelPath], rfl, ?_⟩
      intro path hPath
      exact Function.update_of_ne hPath _ _
  | insert =>
      refine ⟨{ daemon with
        sockets := Function.update daemon.sockets (channelPath pid) none
        nextSocket := daemon.nextSocket + 1 }, ?_, rfl, ?_⟩
      · simp [createSession, initializeSocket_ok, closeSession, channelPath]
      · intro path hPath
        exact Function.update_of_ne hPath _ _

theorem registered (daemon : Daemon) (pid : Int32) (faults : RegistrationFaults) :
    Registered daemon pid faults (daemon.handleClientRegistration pid faults).1
      (daemon.handleClientRegistration pid faults).2 := by
  unfold handleClientRegistration
  cases hSession : daemon.clientSessions.lookup pid with
  | some session =>
      apply Registered.refreshed hSession
      simp [registerResponse, storeSession]
  | none =>
      cases hFault : faults.creation with
      | none =>
          rw [createSession_ok]
          apply Registered.created hSession hFault
          simp [registerResponse, withSession, newSession]
      | some fault =>
          by_cases hThread : fault = .threadCreation
          · rw [hThread, createSession_threadCreation]
            exact .abandoned hSession (hThread ▸ hFault)
          · obtain ⟨after, hCreate, hSessions, hSockets⟩ :=
              createSession_fault daemon pid hThread
            rw [hCreate]
            exact .dropped hSession (by simp [hFault, hThread]) hSessions hSockets

section Cleanup

variable (alive : Int32 → Bool)

@[simp] theorem closeSession_clientSessions (daemon : Daemon) (session : ClientSession) :
    (daemon.closeSession session).clientSessions = daemon.clientSessions := by
  unfold closeSession
  split <;> rfl

@[simp] theorem closeSession_now (daemon : Daemon) (session : ClientSession) :
    (daemon.closeSession session).now = daemon.now := by
  unfold closeSession
  split <;> rfl

theorem closeSession_sockets {path : List UInt8} (h : socketPath session.channelName ≠ path) :
    (daemon.closeSession session).sockets path = daemon.sockets path := by
  unfold closeSession
  split
  · rfl
  · exact Function.update_of_ne h.symm _ _

@[simp] theorem cleanupSession_now (daemon : Daemon) (pid : Int32) :
    (cleanupSession alive daemon pid).now = daemon.now := by
  unfold cleanupSession
  split
  · rfl
  · split
    · exact closeSession_now daemon _
    · rfl

/-- The pass reads the clock once. -/
@[simp] theorem expired_cleanupSession (daemon : Daemon) (pid : Int32) (session : ClientSession) :
    (cleanupSession alive daemon pid).expired alive session = daemon.expired alive session := by
  simp [expired]

/-- One entry of the loop decides about the session of its key. -/
theorem lookup_cleanupSession (daemon : Daemon) (pid other : Int32) :
    (cleanupSession alive daemon pid).clientSessions.lookup other =
      if other = pid then (daemon.clientSessions.lookup pid).filter (!daemon.expired alive ·)
      else daemon.clientSessions.lookup other := by
  by_cases hPid : other = pid
  · rw [if_pos hPid, hPid, cleanupSession]
    cases hSession : daemon.clientSessions.lookup pid with
    | none => simp [hSession]
    | some session => cases hExpired : daemon.expired alive session <;> simp [hSession, hExpired, Option.filter]
  · rw [if_neg hPid, cleanupSession]
    split
    · rfl
    · split
      · exact AList.lookup_erase_ne hPid
      · rfl

theorem sockets_cleanupSession {path : List UInt8}
    (h : ∀ session, daemon.clientSessions.lookup pid = some session →
      daemon.expired alive session = true → socketPath session.channelName ≠ path) :
    (cleanupSession alive daemon pid).sockets path = daemon.sockets path := by
  unfold cleanupSession
  split
  · rfl
  · split
    next session hSession hExpired => exact closeSession_sockets (h session hSession hExpired)
    · rfl

/-- The loop, over any keys. -/
theorem lookup_foldl_cleanupSession (pids : List Int32) (daemon : Daemon) (other : Int32) :
    (pids.foldl (cleanupSession alive) daemon).clientSessions.lookup other =
      if other ∈ pids then (daemon.clientSessions.lookup other).filter (!daemon.expired alive ·)
      else daemon.clientSessions.lookup other := by
  induction pids generalizing daemon with
  | nil => simp
  | cons pid rest ih =>
      rw [List.foldl_cons, ih, lookup_cleanupSession]
      simp only [expired_cleanupSession, List.mem_cons]
      by_cases hPid : other = pid
      · subst hPid
        simp [Option.filter_filter]
      · simp [hPid]

theorem sockets_foldl_cleanupSession {path : List UInt8} (pids : List Int32) (daemon : Daemon)
    (h : ∀ pid session, daemon.clientSessions.lookup pid = some session →
      daemon.expired alive session = true → socketPath session.channelName ≠ path) :
    (pids.foldl (cleanupSession alive) daemon).sockets path = daemon.sockets path := by
  induction pids generalizing daemon with
  | nil => rfl
  | cons pid rest ih =>
      rw [List.foldl_cons, ih, sockets_cleanupSession alive (h pid)]
      intro other session hSession hExpired
      rw [lookup_cleanupSession] at hSession
      rw [expired_cleanupSession] at hExpired
      split_ifs at hSession with hPid
      · exact h pid session (Option.eq_some_of_filter_eq_some hSession) hExpired
      · exact h other session hSession hExpired

/-- A pass leaves the sessions that have not expired. -/
theorem lookup_cleanupPass (daemon : Daemon) (pid : Int32) :
    (daemon.cleanupPass alive).clientSessions.lookup pid =
      (daemon.clientSessions.lookup pid).filter (!daemon.expired alive ·) := by
  rw [cleanupPass, lookup_foldl_cleanupSession]
  split_ifs with hMem
  · rfl
  · have hNone : daemon.clientSessions.lookup pid = none :=
      AList.lookup_eq_none.mpr fun hKey => hMem (AList.mem_keys.mp hKey)
    rw [hNone]
    rfl

theorem sockets_cleanupPass {path : List UInt8}
    (h : ∀ pid session, daemon.clientSessions.lookup pid = some session →
      daemon.expired alive session = true → socketPath session.channelName ≠ path) :
    (daemon.cleanupPass alive).sockets path = daemon.sockets path :=
  sockets_foldl_cleanupSession alive _ daemon h

end Cleanup

end HyCAN.Daemon
