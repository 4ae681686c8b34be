import HyCAN.Client.SendRequest
import HyCAN.Daemon.SessionTable

/-! Whether client and daemon agree about the client's session. The client never
takes back `registered_`, so it has to be the daemon that keeps the session. -/
namespace HyCAN.ClientSystem

open Daemon (generateClientChannelName channelName_response HasSession TableListening)

/-- The daemon has a session of the client, listening where the client connects. -/
def Agreed (pid : Int32) (system : ClientSystem) : Prop :=
  ∃ session socket, system.daemon.clientSessions.lookup pid = some session ∧
    session.socket = some socket ∧
    system.daemon.sockets (socketPath system.clientChannelName) = some socket

/-- From here on, the client does not give up a call without turning to the daemon
for a registration first. -/
def RegistersAgain (pid : Int32) (system : ClientSystem) : Prop :=
  ∀ actions after, (machine pid).run system (actions ++ [.giveUp]) = some after →
    ∃ between, (machine pid).Passes system actions between ∧ between.pc = .contacting

/-- A client that takes itself for registered is not cut off. -/
def Protected (pid : Int32) (system : ClientSystem) : Prop :=
  system.registered = true → Agreed pid system ∨ RegistersAgain pid system

/-- What the table and the client's fields say about each other in every run. -/
structure Consistent (pid : Int32) (system : ClientSystem) : Prop where
  table : TableListening system.daemon
  channelName : system.registered = true → system.clientChannelName = generateClientChannelName pid
  response : ∀ response, system.pc = .answered (some response) →
    response.result = 0 ∧ response.channelName = generateClientChannelName pid
  unregistered : system.pc = .contacting ∨ system.pc = .registering ∨
    (∃ response, system.pc = .answered response) → system.registered = false

/-- The steps, by what they do to the daemon. In `move` only the client moves on. -/
inductive Stepped (pid : Int32) (before : ClientSystem) : Action → ClientSystem → Prop where
  | daemon {action : Daemon.Action} {daemon : Daemon} (hSpares : sparesClient pid action = true)
      (hDaemon : before.daemon.step action = some daemon) :
      Stepped pid before (.daemon action) { before with daemon }
  | move {action : Action} {pc : ClientPc}
      (hAction : action ≠ .readResponse ∧ ∀ other, action ≠ .daemon other)
      (hPc : ∀ response, pc ≠ .answered response)
      (hContacting : pc = .contacting → before.registered = false)
      (hRegistering : pc = .registering → before.pc = .contacting) :
      Stepped pid before action { before with pc }
  | answer {faults : RegistrationFaults} (hPc : before.pc = .registering) :
      Stepped pid before (.answer faults) { before with
        daemon := (before.daemon.handleClientRegistration pid faults).2
        pc := .answered (before.daemon.handleClientRegistration pid faults).1 }
  | read {response : Option ClientRegisterResponse} (hPc : before.pc = .answered response) :
      Stepped pid before .readResponse (before.readResponse response)
  | reply {daemon : Daemon} (hServe : before.daemon.serveRequest pid = some daemon) :
      Stepped pid before .reply { before with daemon, pc := .replied }

section Step

variable {pid : Int32} {before after : ClientSystem} {action : Action}

theorem stepped (hStep : step pid before action = some after) : Stepped pid before action after := by
  cases action with
  | daemon action =>
      simp only [step] at hStep
      split_ifs at hStep with hSpares
      obtain ⟨daemon, hDaemon, rfl⟩ := Option.map_eq_some_iff.mp hStep
      exact .daemon hSpares hDaemon
  | ensureRegistered =>
      simp only [step] at hStep
      split at hStep
      · cases Option.some.inj hStep
        by_cases hRegistered : before.registered = true
        · rw [if_pos hRegistered]
          exact .move (by simp) (by simp) (by simp) (by simp)
        · rw [if_neg hRegistered]
          exact .move (by simp) (by simp) (fun _ => Bool.eq_false_iff.mpr hRegistered) (by simp)
      · cases hStep
  | sendRegistration =>
      simp only [step] at hStep
      split at hStep
      next hPc =>
        cases Option.some.inj hStep
        exact .move (by simp) (by simp) (by simp) (fun _ => hPc)
      · cases hStep
  | answer faults =>
      simp only [step] at hStep
      split at hStep
      next hPc =>
        cases Option.some.inj hStep
        exact .answer hPc
      · cases hStep
  | readResponse =>
      simp only [step] at hStep
      split at hStep
      next response hPc =>
        cases Option.some.inj hStep
        exact .read hPc
      · cases hStep
  | connect =>
      simp only [step] at hStep
      split at hStep
      · split_ifs at hStep
        cases Option.some.inj hStep
        exact .move (by simp) (by simp) (by simp) (by simp)
      · cases hStep
  | reply =>
      simp only [step] at hStep
      split at hStep
      · obtain ⟨daemon, hServe, rfl⟩ := Option.map_eq_some_iff.mp hStep
        exact .reply hServe
      · cases hStep
  | call | readReply | giveUp =>
      simp only [step] at hStep
      split at hStep <;> cases hStep
      exact .move (by simp) (by simp) (by simp) (by simp)

theorem consistent_init (pid : Int32) : Consistent pid init where
  table := Daemon.tableListening_init
  channelName := fun hRegistered => nomatch hRegistered
  response := fun _ hPc => nomatch hPc
  unregistered := fun _ => rfl

/-- The client alone, at a point where no response is waiting. -/
theorem Consistent.move (h : Consistent pid before) {pc : ClientPc}
    (hPc : ∀ response, pc ≠ .answered response)
    (hUnregistered : pc = .contacting ∨ pc = .registering → before.registered = false) :
    Consistent pid { before with pc } where
  table := h.table
  channelName := h.channelName
  response := fun response hAnswered => absurd hAnswered (hPc (some response))
  unregistered := by
    rintro (hContacting | hRegistering | ⟨response, hAnswered⟩)
    · exact hUnregistered (.inl hContacting)
    · exact hUnregistered (.inr hRegistering)
    · exact absurd hAnswered (hPc response)

/-- A response that has come makes the client a registered one. -/
theorem readResponse_some (h : Consistent pid before) {response : ClientRegisterResponse}
    (hPc : before.pc = .answered (some response)) :
    before.readResponse (some response) = { before with
      clientChannelName := generateClientChannelName pid
      registered := true
      pc := .connecting } := by
  obtain ⟨hResult, hName⟩ := h.response response hPc
  simp [readResponse, hResult, hName]

theorem Consistent.step (h : Consistent pid before) (hStep : step pid before action = some after) :
    Consistent pid after := by
  cases stepped hStep with
  | daemon _ hDaemon => exact { h with table := h.table.step hDaemon }
  | move _ hPc hContacting hRegistering =>
      apply h.move hPc
      rintro (hNow | hNow)
      · exact hContacting hNow
      · exact h.unregistered (.inl (hRegistering hNow))
  | @answer faults hPc =>
      have hStep : before.daemon.step (.register pid faults) = some _ := rfl
      have hTable := h.table.step hStep
      refine ⟨hTable, h.channelName, ?_, fun _ => h.unregistered (.inr (.inl hPc))⟩
      intro response hAnswered
      have hSent := (Daemon.response_eq h.table (ClientPc.answered.inj hAnswered)).1
      rw [hSent, channelName_response]
      exact ⟨rfl, rfl⟩
  | @read response hPc =>
      cases response with
      | none => exact h.move (by simp) (by simp)
      | some response =>
          rw [readResponse_some h hPc]
          exact ⟨h.table, fun _ => rfl, fun _ hAnswered => (nomatch hAnswered), by simp⟩
  | reply hServe =>
      have hStep : before.daemon.step (.serve pid) = some _ := hServe
      have hTable := h.table.step hStep
      exact ⟨hTable, h.channelName, fun _ hAnswered => (nomatch hAnswered), by simp⟩

theorem consistent_of_reachable {system : ClientSystem}
    (h : (machine pid).Reachable init system) : Consistent pid system :=
  h.invariant (consistent_init pid) fun _ _ _ hConsistent hStep => hConsistent.step hStep

/-- A promise to register again that a step does not redeem is still one after it. -/
theorem RegistersAgain.next (h : RegistersAgain pid before) (hStep : step pid before action = some after)
    (hPc : before.pc ≠ .contacting) : RegistersAgain pid after := by
  intro actions last hRun
  have hWhole : (machine pid).run before ((action :: actions) ++ [.giveUp]) = some last := by
    rw [List.cons_append, Transition.Machine.run_cons]
    exact Option.bind_eq_some_iff.mpr ⟨after, hStep, hRun⟩
  obtain ⟨between, hBetween, hContacting⟩ := h (action :: actions) last hWhole
  rcases Transition.Machine.passes_cons_iff.mp hBetween with hSame | ⟨next, hNext, hRest⟩
  · exact absurd (hSame ▸ hContacting) hPc
  · cases hStep.symm.trans hNext
    exact ⟨between, hRest, hContacting⟩

/-- It is broken where the call can fail at once. -/
theorem not_registersAgain_of_giveUp (hStep : step pid before .giveUp = some after)
    (hPc : before.pc ≠ .contacting) : ¬RegistersAgain pid before := by
  intro hAgain
  obtain ⟨between, hBetween, hContacting⟩ := hAgain [] after (by simp [machine, hStep])
  rw [Transition.Machine.passes_nil_iff.mp hBetween] at hContacting
  exact hPc hContacting

/-- A client that is registered goes straight to its channel, and gives up if it cannot
connect. -/
theorem not_registersAgain (h : Consistent pid before) (hRegistered : before.registered = true) :
    ¬RegistersAgain pid before := by
  have hConnecting : ¬RegistersAgain pid { before with pc := .connecting } :=
    not_registersAgain_of_giveUp rfl (by simp)
  have hCalled : ¬RegistersAgain pid { before with pc := .called } := by
    intro hAgain
    apply hConnecting
    have hStep : step pid { before with pc := .called } .ensureRegistered =
        some { before with pc := .connecting } := by simp [step, hRegistered]
    exact hAgain.next hStep (by simp)
  cases hPc : before.pc with
  | idle =>
      intro hAgain
      apply hCalled
      have hStep : step pid before .call = some { before with pc := .called } := by simp [step, hPc]
      exact hAgain.next hStep (by simp [hPc])
  | called =>
      have hSame : before = { before with pc := .called } := by rw [← hPc]
      rw [hSame]
      exact hCalled
  | contacting | registering | answered response =>
      have hUnregistered := h.unregistered (by simp [hPc])
      simp [hRegistered] at hUnregistered
  | connecting | requesting | replied =>
      have hStep : step pid before .giveUp = some { before with pc := .idle } := by simp [step, hPc]
      exact not_registersAgain_of_giveUp hStep (by simp [hPc])

/-- So only the session is at stake. -/
theorem protected_iff_hasSession (h : Consistent pid before) :
    Protected pid before ↔ (before.registered = true → HasSession before.daemon pid) := by
  constructor
  · intro hProtected hRegistered
    rcases hProtected hRegistered with ⟨session, _, hLookup, _⟩ | hAgain
    · exact ⟨session, hLookup⟩
    · exact absurd hAgain (not_registersAgain h hRegistered)
  · intro hSession hRegistered
    obtain ⟨session, hLookup⟩ := hSession hRegistered
    obtain ⟨socket, hSocket, hPath⟩ := (h.table pid session hLookup).socket
    rw [Daemon.channelPath, ← h.channelName hRegistered] at hPath
    exact .inl ⟨session, socket, hLookup, hSocket, hPath⟩

/-- What agreement rests on. A pass must not find the session of a registered client
idle for too long, and a response must not be read when its session is gone again. -/
def Retained (pid : Int32) (before : ClientSystem) : Action → Prop
  | .daemon (.cleanup _) => before.registered = true →
    ∀ session, before.daemon.clientSessions.lookup pid = some session →
      before.daemon.now - session.lastActivity ≤ sessionTimeout
  | .readResponse => ∀ response, before.pc = .answered (some response) → HasSession before.daemon pid
  | _ => True

/-- Of the daemon's own steps, only a pass can end the agreement. -/
theorem hasSession_daemon_iff {action : Daemon.Action} {daemon : Daemon}
    (h : Consistent pid before) (hRegistered : before.registered = true)
    (hSession : HasSession before.daemon pid) (hSpares : sparesClient pid action = true)
    (hStep : before.daemon.step action = some daemon) :
    HasSession daemon pid ↔ Retained pid before (.daemon action) := by
  cases action with
  | register client faults =>
      cases Option.some.inj hStep
      exact iff_of_true hSession.register trivial
  | serve client => exact iff_of_true (hSession.serve hStep) trivial
  | cleanup alive =>
      obtain ⟨session, hLookup⟩ := hSession
      simp only [Daemon.step] at hStep
      split_ifs at hStep
      cases Option.some.inj hStep
      have hCleanup := Daemon.hasSession_cleanup_iff h.table hSpares hLookup
      constructor
      · intro hAfter _ found hFound
        rw [hLookup, Option.some.injEq] at hFound
        exact hFound ▸ hCleanup.mp hAfter
      · intro hRetained
        exact hCleanup.mpr (hRetained hRegistered session hLookup)
  | pass duration =>
      cases Option.some.inj hStep
      exact iff_of_true hSession trivial

theorem protected_iff_retained (h : Consistent pid before) (hProtected : Protected pid before)
    (hStep : step pid before action = some after) : Protected pid after ↔ Retained pid before action := by
  rw [protected_iff_hasSession (h.step hStep)]
  have hSession := (protected_iff_hasSession h).mp hProtected
  cases stepped hStep with
  | @daemon action daemon hSpares hDaemon =>
      by_cases hRegistered : before.registered = true
      · rw [← hasSession_daemon_iff h hRegistered (hSession hRegistered) hSpares hDaemon]
        exact ⟨fun hAfter => hAfter hRegistered, fun hAfter _ => hAfter⟩
      · refine iff_of_true (fun hAfter => absurd hAfter hRegistered) ?_
        cases action with
        | cleanup => exact fun hBefore => absurd hBefore hRegistered
        | register | serve | pass => trivial
  | move hAction =>
      refine iff_of_true hSession ?_
      cases action with
      | daemon other => exact absurd rfl (hAction.2 other)
      | readResponse => exact absurd rfl hAction.1
      | call | ensureRegistered | sendRegistration | answer | connect | reply | readReply | giveUp =>
          trivial
  | answer hPc =>
      have hUnregistered := h.unregistered (.inr (.inl hPc))
      exact iff_of_true (fun hRegistered => absurd hRegistered (by simp [hUnregistered])) trivial
  | @read response hPc =>
      have hUnregistered := h.unregistered (.inr (.inr ⟨response, hPc⟩))
      cases response with
      | none =>
          apply iff_of_true
          · intro hRegistered
            simp [readResponse, hUnregistered] at hRegistered
          · intro response hAnswered
            simp [hPc] at hAnswered
      | some response =>
          rw [readResponse_some h hPc]
          constructor
          · intro hAfter _ _
            exact hAfter rfl
          · intro hRetained _
            exact hRetained response hPc
  | reply hServe => exact iff_of_true (fun hRegistered => (hSession hRegistered).serve hServe) trivial

end Step

/-- In all states of the run a registered client is protected exactly if the daemon has
retained its session: no pass of the run found it idle for more than five minutes, and
none removed it before the client had read the response. -/
theorem registration_agreement_iff (pid : Int32) (actions : List Action) :
    (∀ system, (machine pid).Passes init actions system → Protected pid system) ↔
      ∀ before action after, (machine pid).Takes init actions before action after →
        Retained pid before action := by
  apply Transition.Machine.passes_iff_takes
  · intro hRegistered
    cases hRegistered
  · intro before action after hTakes hProtected
    exact protected_iff_retained (consistent_of_reachable hTakes.source.reachable) hProtected hTakes.step

/-- A first call, then five quiet minutes and a pass. -/
def idleRun : List Action :=
  [.call, .ensureRegistered, .sendRegistration, .answer ⟨none, false⟩, .readResponse, .connect, .reply,
    .readReply, .daemon (.pass (sessionTimeout + 1)), .daemon (.cleanup fun _ => true)]

/-- The next call finds no session, and does not ask for a new one. -/
theorem idle_client_cut_off :
    ¬∀ (pid : Int32) (actions : List Action) (before after : ClientSystem),
      (machine pid).Takes init actions before .call after → before.registered = true →
        Agreed pid before ∨ RegistersAgain pid before := by
  intro hClaim
  have hEnd : ((machine 4242).run init idleRun).map (fun system =>
      (system.registered, system.pc, (system.daemon.clientSessions.lookup 4242).isSome)) =
        some (true, .idle, false) := by decide +kernel
  obtain ⟨before, hRun, hFields⟩ := Option.map_eq_some_iff.mp hEnd
  simp only [Prod.mk.injEq] at hFields
  obtain ⟨hRegistered, hPc, hNone⟩ := hFields
  have hCall : step 4242 before .call = some { before with pc := .called } := by simp [step, hPc]
  have hTakes : (machine 4242).Takes init (idleRun ++ [.call]) before .call
      { before with pc := .called } := ⟨idleRun, [], rfl, hRun, hCall⟩
  have hConsistent : Consistent 4242 before := consistent_of_reachable hTakes.source.reachable
  rcases hClaim 4242 _ before _ hTakes hRegistered with ⟨session, _, hLookup, _⟩ | hAgain
  · simp [hLookup] at hNone
  · exact not_registersAgain hConsistent hRegistered hAgain

end HyCAN.ClientSystem
