import HyCAN.Daemon.SessionTable

/-! How long sessions last. A session of a live process that is not idle for too long when
the clean-up thread looks is never taken away, and no session stays idle for much longer than
that. -/
namespace HyCAN.Daemon

variable {before after : Daemon} {action : Action} {pid : Int32} {session : ClientSession}

/-- A pass, if it is one, finds the process of the client alive, and its session active. -/
def FoundActive (pid : Int32) (before : Daemon) (action : Action) : Prop :=
  ∀ alive, action = .cleanup alive → alive pid = true ∧
    ∀ session, before.clientSessions.lookup pid = some session →
      before.now - session.lastActivity ≤ sessionTimeout

/-- The client's session is the one that it was, and its socket is still at its path. -/
def Keeps (pid : Int32) (session : ClientSession) (sockets : List UInt8 → Option Nat)
    (daemon : Daemon) : Prop :=
  ∃ now, daemon.clientSessions.lookup pid = some now ∧
    now = { session with lastActivity := now.lastActivity } ∧
    daemon.sockets (channelPath pid) = sockets (channelPath pid)

theorem Keeps.hasSession {sockets : List UInt8 → Option Nat} (h : Keeps pid session sockets before) :
    HasSession before pid := by
  obtain ⟨now, hLookup, _⟩ := h
  exact ⟨now, hLookup⟩

/-- A step that leaves the client a session leaves it the one that it had. -/
theorem Keeps.step {sockets : List UInt8 → Option Nat} (h : Keeps pid session sockets before)
    (hTable : TableListening before) (hStep : before.step action = some after)
    (hAfter : HasSession after pid) : Keeps pid session sockets after := by
  obtain ⟨now, hLookup, hNow, hSockets⟩ := h
  obtain ⟨later, hLater⟩ := hAfter
  refine ⟨later, hLater, ?_⟩
  cases entry_of_step hTable hStep hLater with
  | kept hOld hSame hSocket =>
      rw [hLookup, Option.some.injEq] at hOld
      rw [← hOld, hNow] at hSame
      exact ⟨hSame, hSocket.trans hSockets⟩
  | new _ hNone => simp [hLookup] at hNone

/-- The process of the client need not be alive for its session to be removed, but it is
removed by a pass. -/
theorem hasSession_step_iff (hTable : TableListening before) (hSession : HasSession before pid)
    (hStep : before.step action = some after) : HasSession after pid ↔ FoundActive pid before action := by
  obtain ⟨session, hLookup⟩ := hSession
  cases action with
  | register client faults =>
      have hAfter : (before.handleClientRegistration client faults).2 = after := Option.some.inj hStep
      subst hAfter
      exact iff_of_true (HasSession.register ⟨session, hLookup⟩) fun _ hNot => by cases hNot
  | serve client => exact iff_of_true (HasSession.serve ⟨session, hLookup⟩ hStep) fun _ hNot => by cases hNot
  | pass duration =>
      have hAfter : { before with now := before.now + duration } = after := Option.some.inj hStep
      subst hAfter
      exact iff_of_true ⟨session, hLookup⟩ fun _ hNot => by cases hNot
  | cleanup alive =>
      simp only [step] at hStep
      split_ifs at hStep
      have hAfter := Option.some.inj hStep
      have hPass : HasSession after pid ↔ HasSession (before.cleanupPass alive) pid := by
        rw [← hAfter]
        exact Iff.rfl
      rw [hPass]
      cases hAlive : alive pid with
      | true =>
          rw [hasSession_cleanup_iff hTable hAlive hLookup]
          constructor
          · intro hActive other hSame
            cases hSame
            refine ⟨hAlive, ?_⟩
            intro found hFound
            rw [hLookup, Option.some.injEq] at hFound
            exact hFound ▸ hActive
          · intro hFound
            exact (hFound alive rfl).2 session hLookup
      | false =>
          apply iff_of_false
          · rintro ⟨kept, hKept⟩
            have hExpired : before.expired alive session = true := by
              simp [expired, (hTable pid session hLookup).clientPid, hAlive]
            rw [lookup_cleanupPass, hLookup] at hKept
            simp [Option.filter, hExpired] at hKept
          · intro hFound
            have hTrue := (hFound alive rfl).1
            simp [hAlive] at hTrue

/-- From any state of the daemon on, and through any run: the client has the session that it
has, with the same socket at the same path, in all states of the run exactly if all passes of
the run find its process alive and its session active within the last five minutes. -/
theorem session_lasts_iff {start : Daemon} (hStart : machine.Reachable init start)
    (hSession : start.clientSessions.lookup pid = some session) (actions : List Action) :
    (∀ daemon, machine.Passes start actions daemon → Keeps pid session start.sockets daemon) ↔
      ∀ before action after, machine.Takes start actions before action after →
        FoundActive pid before action := by
  apply Transition.Machine.passes_iff_takes
  · exact ⟨session, hSession, rfl, rfl⟩
  · intro before action after hTakes hKeeps
    have hTable : TableListening before := by
      obtain ⟨front, hFront⟩ := hStart
      obtain ⟨back, hBack⟩ := hTakes.source.reachable
      apply tableListening_of_reachable
      exact ⟨front ++ back, by rw [machine.run_append, hFront]; exact hBack⟩
    rw [← hasSession_step_iff hTable hKeeps.hasSession hTakes.step]
    exact ⟨Keeps.hasSession, hKeeps.step hTable hTakes.step⟩

/-- A client that has just registered, and a pass half a minute later. -/
theorem session_lasts_registered :
    let start := (init.handleClientRegistration 7 ⟨none, false⟩).2
    ∃ session, start.clientSessions.lookup 7 = some session ∧
      ((∀ daemon, machine.Passes start [.pass cleanupInterval, .cleanup fun _ => true] daemon →
          Keeps 7 session start.sockets daemon) ↔
        ∀ before action after,
          machine.Takes start [.pass cleanupInterval, .cleanup fun _ => true] before action after →
            FoundActive 7 before action) := by
  intro start
  have hThere : (start.clientSessions.lookup 7).isSome = true := by decide +kernel
  obtain ⟨session, hLookup⟩ := Option.isSome_iff_exists.mp hThere
  exact ⟨session, hLookup, session_lasts_iff ⟨[.register 7 ⟨none, false⟩], rfl⟩ hLookup _⟩

section Clock

/-- A function that leaves the clock and the clean-up thread alone. -/
def SameClock (before after : Daemon) : Prop :=
  after.now = before.now ∧ after.cleanupWake = before.cleanupWake

theorem sameClock_initializeSocket (daemon : Daemon) (name : List UInt8) (fails : Bool) :
    SameClock daemon (daemon.initializeSocket name fails).2 := by
  unfold initializeSocket
  split <;> exact ⟨rfl, rfl⟩

theorem sameClock_closeSession (daemon : Daemon) (session : ClientSession) :
    SameClock daemon (daemon.closeSession session) := by
  unfold closeSession
  split <;> exact ⟨rfl, rfl⟩

theorem sameClock_createSession (daemon : Daemon) (pid : Int32) (fault : Option RegistrationFault) :
    SameClock daemon (daemon.createSession pid fault).2 := by
  unfold createSession
  dsimp only
  split
  · exact ⟨rfl, rfl⟩
  · have hSocket := sameClock_initializeSocket daemon (generateClientChannelName pid)
      (fault = some .initializeFails)
    generalize daemon.initializeSocket (generateClientChannelName pid)
      (fault = some .initializeFails) = made at hSocket
    obtain ⟨socket, bound⟩ := made
    cases socket with
    | none => exact hSocket
    | some socket =>
        dsimp only
        split
        · have hClosed := sameClock_closeSession bound
            ⟨pid, generateClientChannelName pid, some socket, false, daemon.now, true⟩
          exact ⟨hClosed.1.trans hSocket.1, hClosed.2.trans hSocket.2⟩
        · split <;> exact hSocket

theorem sameClock_register (daemon : Daemon) (pid : Int32) (faults : RegistrationFaults) :
    SameClock daemon (daemon.handleClientRegistration pid faults).2 := by
  unfold handleClientRegistration
  cases daemon.clientSessions.lookup pid with
  | some session => exact ⟨rfl, rfl⟩
  | none =>
      have hCreated := sameClock_createSession daemon pid faults.creation
      generalize daemon.createSession pid faults.creation = created at hCreated
      obtain ⟨stored, after⟩ := created
      cases stored <;> exact hCreated

theorem cleanupPass_now (daemon : Daemon) (alive : Int32 → Bool) : (daemon.cleanupPass alive).now = daemon.now := by
  unfold cleanupPass
  generalize daemon.clientSessions.keys = pids
  induction pids generalizing daemon with
  | nil => rfl
  | cons pid rest ih => rw [List.foldl_cons, ih, cleanupSession_now]

end Clock

/-- The pass that comes next is no more than an interval away, and no session has been idle
for too long when the last one was made. -/
structure Pruned (daemon : Daemon) : Prop where
  wake : daemon.cleanupWake ≤ daemon.now + cleanupInterval
  active : ∀ pid session, daemon.clientSessions.lookup pid = some session →
    daemon.cleanupWake ≤ session.lastActivity + (sessionTimeout + cleanupInterval)

theorem pruned_init : Pruned init where
  wake := Nat.le_add_left ..
  active _ _ hLookup := nomatch hLookup

/-- A session that is active now. -/
theorem Pruned.insert (h : Pruned before) (hNow : session.lastActivity = before.now)
    (hSessions : after.clientSessions = before.clientSessions.insert pid session)
    (hClock : after.now = before.now) (hWake : after.cleanupWake = before.cleanupWake) : Pruned after where
  wake := by
    rw [hClock, hWake]
    exact h.wake
  active other found hLookup := by
    rw [hWake]
    by_cases hPid : other = pid
    · rw [hSessions, hPid, AList.lookup_insert, Option.some.injEq] at hLookup
      subst hLookup
      have hBound := h.wake
      omega
    · rw [hSessions, AList.lookup_insert_ne hPid] at hLookup
      exact h.active other found hLookup

theorem Pruned.step (h : Pruned before) (hStep : before.step action = some after) : Pruned after := by
  cases action with
  | register client faults =>
      have hAfter : (before.handleClientRegistration client faults).2 = after := Option.some.inj hStep
      have hClock := sameClock_register before client faults
      have hRegistered := registered before client faults
      subst hAfter
      generalize before.handleClientRegistration client faults = handled at hRegistered hClock
      obtain ⟨response, after⟩ := handled
      cases hRegistered with
      | refreshed | abandoned | created => exact h.insert rfl rfl hClock.1 hClock.2
      | dropped _ _ hSessions =>
          refine ⟨by rw [hClock.1, hClock.2]; exact h.wake, ?_⟩
          intro pid session hLookup
          rw [hClock.2]
          exact h.active pid session (hSessions ▸ hLookup)
  | serve client =>
      have hServe : before.serveRequest client = some after := hStep
      unfold serveRequest at hServe
      split at hServe
      · cases hServe
      · split_ifs at hServe
        cases Option.some.inj hServe
        exact h.insert rfl rfl rfl rfl
  | pass duration =>
      have hAfter : { before with now := before.now + duration } = after := Option.some.inj hStep
      subst hAfter
      refine ⟨?_, h.active⟩
      have hBound := h.wake
      show before.cleanupWake ≤ before.now + duration + cleanupInterval
      omega
  | cleanup alive =>
      simp only [Daemon.step] at hStep
      split_ifs at hStep
      have hAfter := Option.some.inj hStep
      subst hAfter
      refine ⟨by simp [cleanupPass_now], ?_⟩
      intro pid session hLookup
      have hKept : (before.cleanupPass alive).clientSessions.lookup pid = some session := hLookup
      rw [lookup_cleanupPass] at hKept
      obtain ⟨_, hActive⟩ := Option.filter_eq_some_iff.mp hKept
      simp only [expired, Bool.not_or, Bool.and_eq_true, decide_eq_false_iff_not, Bool.not_eq_true',
        Bool.not_not, not_lt] at hActive
      show before.now + cleanupInterval ≤ session.lastActivity + (sessionTimeout + cleanupInterval)
      omega

theorem pruned_of_reachable {daemon : Daemon} (h : machine.Reachable init daemon) : Pruned daemon :=
  h.invariant pruned_init fun _ _ _ hBefore hStep => hBefore.step hStep

/-- In every state that the daemon reaches, a session has been idle for at most the timeout and
one interval, and what the clean-up thread is late. -/
theorem idle_le {daemon : Daemon} (h : machine.Reachable init daemon)
    (hSession : daemon.clientSessions.lookup pid = some session) :
    daemon.now - session.lastActivity ≤
      sessionTimeout + cleanupInterval + (daemon.now - daemon.cleanupWake) := by
  have hBound := (pruned_of_reachable h).active pid session hSession
  omega

/-- A client registers, is idle for six minutes, and the clean-up thread is late. -/
theorem idle_le_late :
    ∃ late session, machine.run init [.register 7 ⟨none, false⟩, .pass (6 * 60 * second)] = some late ∧
      late.clientSessions.lookup 7 = some session ∧
      late.now - session.lastActivity ≤
        sessionTimeout + cleanupInterval + (late.now - late.cleanupWake) := by
  obtain ⟨late, hRun⟩ : ∃ late, machine.run init
      [.register 7 ⟨none, false⟩, .pass (6 * 60 * second)] = some late := ⟨_, rfl⟩
  have hThere : (late.clientSessions.lookup 7).isSome = true := by
    cases Option.some.inj hRun
    decide +kernel
  obtain ⟨session, hLookup⟩ := Option.isSome_iff_exists.mp hThere
  exact ⟨late, session, hRun, hLookup, idle_le ⟨_, hRun⟩ hLookup⟩

end HyCAN.Daemon
