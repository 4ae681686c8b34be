import HyCAN.Daemon.SessionLifetime
import HyCAN.Daemon.UnixSocketSteps

/-! The socket files under `/run` and the table of the sessions. A path is unlinked only
by the object that may have bound it, and there is at most one such object for each path. -/
namespace HyCAN

open Ownership Transition

/-- The main socket has been initialized and not destroyed. -/
def RunPc.serving : RunPc → Bool
  | .creatingMain | .initializingMain | .droppingMain | .finished => false
  | _ => true

/-- An accepted connection. -/
def SocketPlace.isConnection : SocketPlace → Bool
  | .registration | .request _ => true
  | .main | .session _ => false

namespace DaemonSessions

variable (s : DaemonSessions)

/-- How far the socket is that the main thread makes. -/
def SocketFacts : RunPc → Prop
  | .creatingMain => s.sockets.objects .main = none
  | .initializingMain => ∀ object, s.sockets.objects .main = some object → object.socketFd = none
  | .creatingSocket _ k => s.sockets.objects (.session k) = none
  | .initializing _ k => ∀ object, s.sockets.objects (.session k) = some object → object.socketFd = none
  | .storing pid k => s.sockets.Serves (.session k) (Daemon.channelPath pid)
  | _ => True

/-- What holds between the table, the socket objects and the files in every reachable
state. -/
structure FilesKept : Prop where
  consistent : s.sockets.Consistent
  connection : ∀ o object, o.isConnection = true → s.sockets.objects o = some object →
    object.mode = .client
  main : ∀ object, s.sockets.objects .main = some object →
    object.mode = .server ∧ object.socketPath = mainPath
  session : ∀ k object, s.sockets.objects (.session k) = some object → object.mode = .server ∧
    ∃ session, s.sessions k = some session ∧
      object.socketPath = Daemon.channelPath session.clientPid
  channel : ∀ k session, s.sessions k = some session →
    session.channelName = Daemon.generateClientChannelName session.clientPid
  run : s.SocketFacts s.runPc
  mainServes : s.runPc.serving = true → s.sockets.Serves .main mainPath
  sessionServes : ∀ pid k, s.stored pid = some k →
    s.sockets.Serves (.session k) (Daemon.channelPath pid)

variable {s}

theorem file_main {object : UnixSocket} (hPath : object.socketPath = mainPath) : object.file = mainPath := by
  rw [UnixSocket.file, hPath, CString.read_of_not_mem (by decide +kernel)]

theorem file_channel {object : UnixSocket} {pid : Int32}
    (hPath : object.socketPath = Daemon.channelPath pid) : object.file = Daemon.channelPath pid := by
  rw [UnixSocket.file, hPath, CString.read_of_not_mem (Daemon.zero_not_mem_channelPath pid)]

theorem channelPath_ne_nil (pid : Int32) : Daemon.channelPath pid ≠ [] := by
  intro hSame
  have hPrefix : ascii "/run/hycan_" ≠ [] := by decide +kernel
  exact hPrefix (List.append_eq_nil_iff.mp hSame).1

section Objects

variable {object : UnixSocket} {k : Nat}

theorem FilesKept.named_main (h : s.FilesKept) (hObject : s.sockets.objects .main = some object) :
    object.Named ∧ object.touched = some mainPath := by
  obtain ⟨hMode, hPath⟩ := h.main object hObject
  refine ⟨fun _ => hPath ▸ by decide +kernel, ?_⟩
  rw [UnixSocket.touched, if_pos hMode, file_main hPath]

theorem FilesKept.named_session (h : s.FilesKept) {session : SessionObject}
    (hSession : s.sessions k = some session) (hObject : s.sockets.objects (.session k) = some object) :
    object.Named ∧ object.touched = some (Daemon.channelPath session.clientPid) := by
  obtain ⟨hMode, same, hSame, hPath⟩ := h.session k object hObject
  rw [hSession, Option.some.injEq] at hSame
  subst hSame
  refine ⟨fun _ => hPath ▸ channelPath_ne_nil _, ?_⟩
  rw [UnixSocket.touched, if_pos hMode, file_channel hPath]

theorem FilesKept.named_connection (h : s.FilesKept) {o : SocketPlace} (hPlace : o.isConnection = true)
    (hObject : s.sockets.objects o = some object) : object.Named ∧ object.touched = none := by
  have hMode := h.connection o object hPlace hObject
  refine ⟨fun hServer => ?_, ?_⟩
  · rw [hMode] at hServer
    cases hServer
  · rw [UnixSocket.touched, if_neg (by rw [hMode]; decide)]

end Objects

/-- A step that leaves the sockets, the sessions and the table as they are. -/
theorem FilesKept.same (h : s.FilesKept) {t : DaemonSessions} (hSockets : t.sockets = s.sockets)
    (hSessions : t.sessions = s.sessions) (hTable : t.clientSessions = s.clientSessions)
    (hServing : t.runPc.serving = true → s.runPc.serving = true) (hFacts : s.SocketFacts t.runPc) :
    t.FilesKept := by
  obtain ⟨_, _, _, _, clientSessions, sessions, _, _, sockets, _, _, _⟩ := t
  dsimp only at hSockets hSessions hTable hServing hFacts
  subst hSockets hSessions hTable
  exact ⟨h.consistent, h.connection, h.main, h.session, h.channel, hFacts,
    fun hPc => h.mainServes (hServing hPc), h.sessionServes⟩

/-- A session keeps its client and its channel. -/
theorem FilesKept.setSession (h : s.FilesKept) {k : Nat} {session after : SessionObject}
    (hSession : s.sessions k = some session) (hClient : after.clientPid = session.clientPid)
    (hChannel : after.channelName = session.channelName) : (s.setSession k after).FilesKept := by
  have hAt : ∀ j, j ≠ k → (s.setSession k after).sessions j = s.sessions j := by
    intro j hNe
    exact Function.update_of_ne hNe _ _
  have hSelf : (s.setSession k after).sessions k = some after := Function.update_self ..
  refine ⟨h.consistent, h.connection, h.main, ?_, ?_, h.run, h.mainServes, h.sessionServes⟩
  · intro j object hObject
    obtain ⟨hMode, other, hOther, hPath⟩ := h.session j object hObject
    refine ⟨hMode, ?_⟩
    rcases eq_or_ne j k with rfl | hNe
    · rw [hSession, Option.some.injEq] at hOther
      exact ⟨after, hSelf, by rw [hPath, hClient, hOther]⟩
    · exact ⟨other, (hAt j hNe).trans hOther, hPath⟩
  · intro j other hOther
    rcases eq_or_ne j k with rfl | hNe
    · rw [hSelf, Option.some.injEq] at hOther
      rw [← hOther, hChannel, hClient]
      exact h.channel j session hSession
    · exact h.channel j other ((hAt j hNe).symm.trans hOther)

/-- What happens to a connection leaves all servers alone. -/
theorem FilesKept.connect (h : s.FilesKept) {o : SocketPlace} (hPlace : o.isConnection = true)
    {sockets : UnixSockets SocketPlace} (hTouches : s.sockets.Touches sockets o none)
    (hConsistent : sockets.Consistent)
    (hClient : ∀ object, sockets.objects o = some object → object.mode = .client) :
    FilesKept { s with sockets := sockets } := by
  have hMain : SocketPlace.main ≠ o := by
    rintro rfl
    cases hPlace
  have hSession : ∀ k, SocketPlace.session k ≠ o := by
    rintro k rfl
    cases hPlace
  have hServes : ∀ other path, other ≠ o → s.sockets.Serves other path → sockets.Serves other path :=
    fun other path hNe hBefore => hBefore.frame hTouches hConsistent hNe (by simp)
  refine ⟨hConsistent, ?_, ?_, ?_, h.channel, ?_, ?_, ?_⟩
  · intro other object hOther hObject
    rcases eq_or_ne other o with rfl | hNe
    · exact hClient object hObject
    · exact h.connection other object hOther ((hTouches.objects other hNe).symm.trans hObject)
  · intro object hObject
    exact h.main object ((hTouches.objects _ hMain).symm.trans hObject)
  · intro k object hObject
    exact h.session k object ((hTouches.objects _ (hSession k)).symm.trans hObject)
  · have hFacts := h.run
    change DaemonSessions.SocketFacts { s with sockets := sockets } s.runPc
    cases hPc : s.runPc <;> rw [hPc] at hFacts <;>
      simp only [SocketFacts, hTouches.objects _ hMain, hTouches.objects _ (hSession _)] at hFacts ⊢ <;>
      first | exact hFacts | skip
    exact hServes _ _ (hSession _) hFacts
  · intro hPc
    exact hServes _ _ hMain (h.mainServes hPc)
  · intro pid k hStored
    exact hServes _ _ (hSession k) (h.sessionServes pid k hStored)

theorem FilesKept.accept (h : s.FilesKept) {object : UnixSocket} {new : SocketPlace}
    (hPlace : new.isConnection = true) {outcome : Option Nat} {came : Bool}
    {sockets : UnixSockets SocketPlace}
    (hAccept : s.sockets.accept object new outcome = some (came, sockets)) :
    FilesKept { s with sockets := sockets } := by
  have hNew := fun before => h.connection new before hPlace
  exact h.connect hPlace (.accept hAccept) (h.consistent.accept hNew hAccept)
    (UnixSockets.object_accept hNew hAccept)

theorem FilesKept.disconnect (h : s.FilesKept) {o : SocketPlace} (hPlace : o.isConnection = true) :
    FilesKept { s with sockets := s.sockets.reset o } := by
  have hTouches : s.sockets.Touches (s.sockets.reset o) o none :=
    .reset _ _ fun object hObject => (h.named_connection hPlace hObject).2
  have hConsistent : (s.sockets.reset o).Consistent :=
    h.consistent.reset _ fun object hObject => (h.named_connection hPlace hObject).1
  apply h.connect hPlace hTouches hConsistent
  intro object hObject
  rw [UnixSockets.object_reset] at hObject
  cases hObject

/-- What happens to the main socket leaves those of the sessions alone. -/
theorem FilesKept.changeMain (h : s.FilesKept) {sockets : UnixSockets SocketPlace}
    {touched : Option (List UInt8)} (hTouches : s.sockets.Touches sockets .main touched)
    (hTouched : touched = none ∨ touched = some mainPath) (hConsistent : sockets.Consistent)
    (hObject : ∀ object, sockets.objects .main = some object →
      object.mode = .server ∧ object.socketPath = mainPath) {pc : RunPc}
    (hServes : pc.serving = true → sockets.Serves .main mainPath)
    (hFacts : SocketFacts { s with sockets := sockets } pc) :
    FilesKept { s with sockets := sockets, runPc := pc } := by
  have hOther : ∀ other, other ≠ SocketPlace.main → sockets.objects other = s.sockets.objects other :=
    fun other hNe => hTouches.objects other hNe
  refine ⟨hConsistent, ?_, hObject, ?_, h.channel, hFacts, hServes, ?_⟩
  · intro o object hPlace hSame
    refine h.connection o object hPlace ((hOther o ?_).symm.trans hSame)
    rintro rfl
    cases hPlace
  · intro k object hSame
    exact h.session k object ((hOther _ (by simp)).symm.trans hSame)
  · intro pid k hStored
    refine (h.sessionServes pid k hStored).frame hTouches hConsistent (by simp) ?_
    rcases hTouched with rfl | rfl
    · simp
    · simp [(Daemon.mainPath_ne_channelPath pid).symm]

/-- What happens to one session leaves the main socket and the other sessions alone. -/
theorem FilesKept.changeSession (h : s.FilesKept) {t : DaemonSessions} {k : Nat}
    {touched : Option (List UInt8)} (hTouches : s.sockets.Touches t.sockets (.session k) touched)
    (hMain : some mainPath ≠ touched) (hConsistent : t.sockets.Consistent)
    (hObject : ∀ object, t.sockets.objects (.session k) = some object → object.mode = .server ∧
      ∃ session, t.sessions k = some session ∧
        object.socketPath = Daemon.channelPath session.clientPid)
    (hChannel : ∀ session, t.sessions k = some session →
      session.channelName = Daemon.generateClientChannelName session.clientPid)
    (hSessions : ∀ j, j ≠ k → t.sessions j = s.sessions j) (hFacts : t.SocketFacts t.runPc)
    (hServing : t.runPc.serving = true → s.runPc.serving = true)
    (hStored : ∀ pid j, t.stored pid = some j → s.stored pid = some j ∧ j ≠ k ∧
      some (Daemon.channelPath pid) ≠ touched) : t.FilesKept := by
  have hOther : ∀ other, other ≠ SocketPlace.session k →
      t.sockets.objects other = s.sockets.objects other := fun other hNe => hTouches.objects other hNe
  refine ⟨hConsistent, ?_, ?_, ?_, ?_, hFacts, ?_, ?_⟩
  · intro o object hPlace hSame
    refine h.connection o object hPlace ((hOther o ?_).symm.trans hSame)
    rintro rfl
    cases hPlace
  · intro object hSame
    exact h.main object ((hOther _ (by simp)).symm.trans hSame)
  · intro j object hSame
    rcases eq_or_ne j k with rfl | hNe
    · exact hObject object hSame
    · rw [hSessions j hNe]
      exact h.session j object ((hOther _ (by simpa using hNe)).symm.trans hSame)
  · intro j session hSame
    rcases eq_or_ne j k with rfl | hNe
    · exact hChannel session hSame
    · exact h.channel j session ((hSessions j hNe).symm.trans hSame)
  · intro hPc
    exact (h.mainServes (hServing hPc)).frame hTouches hConsistent (by simp) hMain
  · intro pid j hAfter
    obtain ⟨hBefore, hNe, hPath⟩ := hStored pid j hAfter
    exact (h.sessionServes pid j hBefore).frame hTouches hConsistent (by simpa using hNe) hPath

/-- A session that is not in the table has another client than those that are. -/
theorem Unstored.ne {pid other : Int32} {k j : Nat} (h : s.Unstored pid k) (hKept : s.SessionsKept)
    (hStored : s.stored other = some j) : j ≠ k ∧ other ≠ pid := by
  obtain ⟨hNone, _, session, hSession, rfl⟩ := h
  obtain ⟨same, hSame, rfl⟩ := hKept.stored other j hStored
  have hClient : same.clientPid ≠ session.clientPid := by
    intro hEq
    rw [hEq, hNone] at hStored
    cases hStored
  refine ⟨?_, hClient⟩
  rintro rfl
  rw [hSession, Option.some.injEq] at hSame
  exact hClient (by rw [hSame])

theorem channelPath_ne {pid other : Int32} (hNe : other ≠ pid) :
    some (Daemon.channelPath other) ≠ some (Daemon.channelPath pid) :=
  fun hSame => hNe (Daemon.channelPath_injective (Option.some.inj hSame))

/-- A session that goes takes its own path with it and no other. -/
theorem FilesKept.drop (h : s.FilesKept) {t : DaemonSessions} {k : Nat} {session : SessionObject}
    (hSession : s.sessions k = some session) (hSockets : t.sockets = s.sockets.reset (.session k))
    (hSessions : t.sessions = Function.update s.sessions k none) (hFacts : t.SocketFacts t.runPc)
    (hServing : t.runPc.serving = true → s.runPc.serving = true)
    (hStored : ∀ pid j, t.stored pid = some j →
      s.stored pid = some j ∧ j ≠ k ∧ pid ≠ session.clientPid) : t.FilesKept := by
  have hTouches : s.sockets.Touches t.sockets (.session k)
      (some (Daemon.channelPath session.clientPid)) := by
    rw [hSockets]
    exact .reset _ _ fun object hObject => (h.named_session hSession hObject).2
  have hConsistent : t.sockets.Consistent := by
    rw [hSockets]
    exact h.consistent.reset _ fun object hObject => (h.named_session hSession hObject).1
  refine h.changeSession hTouches ?_ hConsistent ?_ ?_ ?_ hFacts hServing ?_
  · exact fun hSame => Daemon.mainPath_ne_channelPath _ (Option.some.inj hSame)
  · intro object hObject
    rw [hSockets, UnixSockets.object_reset] at hObject
    cases hObject
  · intro other hOther
    rw [hSessions, Function.update_self] at hOther
    cases hOther
  · intro j hNe
    rw [hSessions, Function.update_of_ne hNe]
  · intro pid j hAfter
    obtain ⟨hBefore, hNumber, hClient⟩ := hStored pid j hAfter
    exact ⟨hBefore, hNumber, channelPath_ne hClient⟩

theorem FilesKept.erase (h : s.FilesKept) (hKept : s.SessionsKept) {pid : Int32} {k : Nat}
    (hStored : s.stored pid = some k) (hFacts : (s.eraseSession pid k).SocketFacts s.runPc) :
    (s.eraseSession pid k).FilesKept := by
  obtain ⟨session, hSession, rfl⟩ := hKept.stored pid k hStored
  refine h.drop hSession rfl rfl hFacts id ?_
  intro other j hOther
  obtain ⟨hNe, hBefore⟩ := stored_eraseSession hOther
  refine ⟨hBefore, ?_, hNe⟩
  rintro rfl
  obtain ⟨same, hSame, rfl⟩ := hKept.stored other j hBefore
  rw [hSession, Option.some.injEq] at hSame
  exact hNe (by rw [hSame])

section Registration

variable {pid : Int32} {k : Nat}

theorem FilesKept.created (h : s.FilesKept) (hKept : s.SessionsKept) (hPc : s.runPc = .creating pid) :
    FilesKept { s.setSession s.nextSession ⟨pid, Daemon.generateClientChannelName pid, .null, true⟩ with
      nextSession := s.nextSession + 1
      runPc := .creatingSocket pid s.nextSession } := by
  obtain ⟨hNone, _⟩ := hKept.unused s.nextSession (Nat.le_refl _)
  have hObject : s.sockets.objects (.session s.nextSession) = none := by
    by_contra hSome
    obtain ⟨object, hObject⟩ := Option.ne_none_iff_exists'.mp hSome
    obtain ⟨_, session, hSession, _⟩ := h.session s.nextSession object hObject
    rw [hNone] at hSession
    cases hSession
  have hTouches : s.sockets.Touches s.sockets (.session s.nextSession) none := .refl _ _ _
  refine h.changeSession hTouches (by simp) h.consistent ?_ ?_ ?_ hObject ?_ ?_
  · intro object hSame
    cases hObject.symm.trans hSame
  · intro session hSame
    cases hSame.symm.trans (Function.update_self ..)
    rfl
  · exact fun j hNe => Function.update_of_ne hNe _ _
  · exact fun _ => by rw [hPc]; rfl
  · intro other j hStored
    refine ⟨hStored, ?_, by simp⟩
    rintro rfl
    obtain ⟨session, hSession, _⟩ := hKept.stored other _ hStored
    rw [hNone] at hSession
    cases hSession

theorem FilesKept.socketCreated (h : s.FilesKept) (hKept : s.SessionsKept) {session : SessionObject}
    (hPc : s.runPc = .creatingSocket pid k) (hSession : s.sessions k = some session) :
    FilesKept { s with
      sockets := s.sockets.put (.session k) (.ofName session.channelName .server)
      runPc := .initializing pid k } := by
  have hFacts := h.run
  have hKnown := hKept.run
  rw [hPc] at hFacts hKnown
  have hNone : s.sockets.objects (.session k) = none := hFacts
  have hUnstored : s.Unstored pid k := hKnown
  have hTouches : s.sockets.Touches (s.sockets.put (.session k) (.ofName session.channelName .server))
      (.session k) none := .put _ _ _ _
  refine h.changeSession hTouches (by simp) (h.consistent.put (by simp [hNone]) rfl) ?_ (h.channel k)
    (fun _ _ => rfl) ?_ ?_ ?_
  · intro object hObject
    cases hObject.symm.trans (Function.update_self ..)
    refine ⟨rfl, session, hSession, ?_⟩
    rw [UnixSocket.ofName, h.channel k session hSession]
    rfl
  · intro object hObject
    cases hObject.symm.trans (Function.update_self ..)
    rfl
  · exact fun _ => by rw [hPc]; rfl
  · intro other j hStored
    exact ⟨hStored, (hUnstored.ne hKept hStored).1, by simp⟩

theorem FilesKept.socketInitialized (h : s.FilesKept) (hKept : s.SessionsKept) {object : UnixSocket}
    {outcome : InitializeOutcome} {done : Bool} {sockets : UnixSockets SocketPlace}
    (hPc : s.runPc = .initializing pid k) (hObject : s.sockets.objects (.session k) = some object)
    (hInitialize : s.sockets.initializeSocket (.session k) object outcome = some (done, sockets)) :
    FilesKept { s with sockets := sockets, runPc := if done then .storing pid k else .dropping k } := by
  have hFacts := h.run
  have hKnown := hKept.run
  rw [hPc] at hFacts hKnown
  have hUnstored : s.Unstored pid k := hKnown
  obtain ⟨_, _, session, hSession, hClient⟩ := hKnown
  obtain ⟨hMode, same, hSame, hPath⟩ := h.session k object hObject
  rw [hSession, Option.some.injEq] at hSame
  obtain ⟨hNamed, hTouched⟩ := h.named_session hSession hObject
  have hStep := UnixSockets.initializeSocket_cases hMode hInitialize
  have hDone := h.consistent.initialize hObject hMode hNamed (hFacts object hObject) hStep
  rw [← hSame, hClient] at hPath
  rw [hClient] at hTouched
  refine h.changeSession (k := k) (hStep.touches hMode) ?_ hDone.consistent ?_ (h.channel k) (fun _ _ => rfl) ?_
    ?_ ?_
  · rw [hTouched]
    exact fun hSame => Daemon.mainPath_ne_channelPath _ (Option.some.inj hSame)
  · intro after hAfter
    obtain ⟨found, hFound, hServer, hStays⟩ := hDone.stays
    cases hAfter.symm.trans hFound
    exact ⟨hServer, session, hSession, by rw [hStays, hPath, hClient]⟩
  · cases done with
    | false => trivial
    | true =>
        have hServes := hDone.serves rfl
        rw [file_channel hPath] at hServes
        exact hServes
  · exact fun _ => by rw [hPc]; rfl
  · intro other j hStored
    obtain ⟨hNumber, hNe⟩ := hUnstored.ne hKept hStored
    exact ⟨hStored, hNumber, hTouched ▸ channelPath_ne hNe⟩

theorem FilesKept.inserted (h : s.FilesKept) (hPc : s.runPc = .storing pid k) :
    FilesKept { s with
      clientSessions := s.clientSessions.insert pid k, runPc := .starting pid k } := by
  have hFacts := h.run
  rw [hPc] at hFacts
  refine ⟨h.consistent, h.connection, h.main, h.session, h.channel, trivial, ?_, ?_⟩
  · exact fun _ => h.mainServes (by rw [hPc]; rfl)
  · intro other j hOther
    change DaemonSessions.stored { s with clientSessions := s.clientSessions.insert pid k } other = _ at hOther
    rw [stored_insert] at hOther
    split_ifs at hOther with hSame
    · cases hOther
      exact hSame ▸ hFacts
    · exact h.sessionServes other j hOther

end Registration

theorem FilesKept.move (h : s.FilesKept) {pc : RunPc} (hMove : RunMove s pc) :
    FilesKept { s with runPc := pc } := by
  cases hMove with
  | refused hPc | notStarted hPc | emptied hPc =>
      exact h.same rfl rfl rfl nofun trivial
  | entered hPc | notRoot hPc | loops hPc | leaves hPc | requested _ hPc | invalid hPc | known hPc
  | unknown hPc _ | noSocket hPc | notInserted hPc | allJoined hPc | returns hPc =>
      exact h.same rfl rfl rfl (fun _ => by rw [hPc]; rfl) trivial

theorem FilesKept.unlock (h : s.FilesKept) {pc : RunPc} (hUnlock : RunUnlock s pc) :
    FilesKept { s with runPc := pc, sessionsMutex := none } := by
  cases hUnlock with
  | notCreated hPc | notStarted hPc | responded hPc | cleared hPc _ =>
      exact h.same rfl rfl rfl (fun _ => by rw [hPc]; rfl) trivial

theorem FilesKept.tell (h : s.FilesKept) {k : Nat} {session : SessionObject}
    (hSession : s.sessions k = some session) : (s.tell k session).FilesKept :=
  h.setSession hSession rfl rfl

theorem FilesKept.join (h : s.FilesKept) {k : Nat} {session : SessionObject} {u : DaemonSessions}
    (hSession : s.sessions k = some session) (hJoin : JoinStep s k session u) : u.FilesKept := by
  cases hJoin with
  | nothing => exact h
  | joined => exact h.setSession hSession rfl rfl

theorem FilesKept.runStep (h : s.FilesKept) (hKept : s.SessionsKept) {t : DaemonSessions}
    (hRun : RunStep s t) : t.FilesKept := by
  have hFacts := h.run
  cases hRun with
  | moved hMove => exact h.move hMove
  | unlocked hUnlock => exact h.unlock hUnlock
  | locked hPc hFree | cleanupLocked hPc hFree hOrder =>
      exact h.same rfl rfl rfl (fun _ => by rw [hPc]; rfl) trivial
  | cleanupStarted hPc =>
      exact h.same rfl rfl rfl (fun _ => by rw [hPc]; rfl) trivial
  | stopped running cleanupJoinable hPc hNext =>
      rcases hNext with rfl | ⟨again, rfl⟩
      · exact h.same rfl rfl rfl (fun _ => by rw [hPc]; rfl) trivial
      · exact h.same rfl rfl rfl (fun _ => by rw [hPc]; rfl) trivial
  | mainCreated hPc =>
      rw [hPc] at hFacts
      have hNone : s.sockets.objects .main = none := hFacts
      refine h.changeMain (.put _ SocketPlace.main _ none) (.inl rfl)
        (h.consistent.put (by simp [hNone]) rfl) ?_ nofun ?_
      · intro object hObject
        cases hObject.symm.trans (UnixSockets.object_put ..)
        exact ⟨rfl, rfl⟩
      · intro object hObject
        cases hObject.symm.trans (UnixSockets.object_put ..)
        rfl
  | @mainInitialized object outcome done sockets hPc hObject hInitialize =>
      rw [hPc] at hFacts
      obtain ⟨hMode, hPath⟩ := h.main object hObject
      obtain ⟨hNamed, hTouched⟩ := h.named_main hObject
      have hStep := UnixSockets.initializeSocket_cases hMode hInitialize
      have hDone := h.consistent.initialize hObject hMode hNamed (hFacts object hObject) hStep
      refine h.changeMain (hStep.touches hMode) (.inr hTouched) hDone.consistent ?_ ?_ ?_
      · intro after hAfter
        obtain ⟨found, hFound, hServer, hStays⟩ := hDone.stays
        cases hAfter.symm.trans hFound
        exact ⟨hServer, hStays.trans hPath⟩
      · cases done with
        | false => nofun
        | true =>
            have hServes := hDone.serves rfl
            rw [file_main hPath] at hServes
            exact fun _ => hServes
      · split_ifs <;> trivial
  | mainDropped hPc =>
      refine h.changeMain (.reset _ SocketPlace.main fun object hObject => (h.named_main hObject).2) (.inr rfl)
        (h.consistent.reset _ fun object hObject => (h.named_main hObject).1) ?_ nofun trivial
      intro object hObject
      rw [UnixSockets.object_reset] at hObject
      cases hObject
  | @accepted object outcome came sockets hPc hObject hAccept =>
      have hConnected := h.accept rfl hAccept
      refine hConnected.same rfl rfl rfl (fun _ => ?_) ?_
      · rw [show ({ s with sockets := sockets } : DaemonSessions).runPc = _ from hPc]
        rfl
      · split_ifs <;> trivial
  | closed hPc =>
      have hConnected := h.disconnect (o := .registration) rfl
      exact hConnected.same rfl rfl rfl (fun _ => by rw [hPc]; rfl) trivial
  | created hPc => exact h.created hKept hPc
  | socketCreated hPc hSession => exact h.socketCreated hKept hPc hSession
  | socketInitialized hPc hObject hInitialize => exact h.socketInitialized hKept hPc hObject hInitialize
  | inserted hPc => exact h.inserted hPc
  | dropped hPc =>
      have hKnown := hKept.run
      rw [hPc] at hKnown
      obtain ⟨pid, hUnstored⟩ := hKnown
      obtain ⟨session, hSession, hClient⟩ := hUnstored.2.2
      refine h.drop hSession rfl rfl trivial (fun _ => by rw [hPc]; rfl) ?_
      intro other j hStored
      rw [hClient]
      exact ⟨hStored, hUnstored.ne hKept hStored⟩
  | started hPc => exact h.same rfl rfl rfl (fun _ => by rw [hPc]; rfl) trivial
  | @assigned pid k session hPc hSession =>
      have hStored : (s.setSession k { session with workerThread := .joinable }).FilesKept :=
        h.setSession hSession rfl rfl
      exact hStored.same rfl rfl rfl (fun _ => by rw [DaemonSessions.setSession, hPc]; rfl) trivial
  | told hPc hStored hSession =>
      exact (h.tell hSession).same rfl rfl rfl
        (fun _ => by rw [DaemonSessions.tell, DaemonSessions.setSession, hPc]; rfl) trivial
  | joined hPc hStored hSession hJoin =>
      have hJoined := h.join hSession hJoin
      obtain ⟨sessions, rfl⟩ := hJoin.frame
      exact hJoined.same rfl rfl rfl (fun _ => by rw [hPc]; rfl) trivial
  | erased hPc hStored =>
      refine h.erase hKept hStored ?_
      rcases hPc with hPc | hPc <;> rw [hPc] <;> trivial

theorem socketFacts_of {pc : RunPc} (hEarly : pc.constructing = false) (hHeld : pc.held = none) :
    s.SocketFacts pc := by
  cases pc <;> simp_all [RunPc.constructing, RunPc.held, SocketFacts]

theorem FilesKept.sweepStep (h : s.FilesKept) (hKept : s.SessionsKept) {t : DaemonSessions}
    (hSweep : SweepStep s t) : t.FilesKept := by
  cases hSweep with
  | moved | locked | unlocked => exact h.same rfl rfl rfl id h.run
  | told hPc hStored hSession =>
      have hTold := h.tell hSession
      exact hTold.same rfl rfl rfl id hTold.run
  | joined hPc hStored hSession hJoin =>
      have hJoined := h.join hSession hJoin
      exact hJoined.same rfl rfl rfl id hJoined.run
  | @erased pid left k hPc hStored =>
      -- the main thread makes no socket, since it does not hold the mutex
      have hHeld := (held_of_unlocked (hKept.run_unlocked (by rw [hPc]; rfl))).1
      have hEarly : s.runPc.constructing = false := by
        by_contra hConstructing
        have hNone := hKept.early (by simpa using hConstructing)
        rw [hPc] at hNone
        cases hNone
      have hErased := h.erase hKept hStored (socketFacts_of hEarly hHeld)
      exact hErased.same rfl rfl rfl id hErased.run

theorem FilesKept.workerStep (h : s.FilesKept) {k : Nat} {t : DaemonSessions}
    (hWorker : WorkerStep s k t) : t.FilesKept := by
  cases hWorker with
  | tested => exact h.same rfl rfl rfl id h.run
  | @accepted object outcome came sockets hPc hObject hAccept =>
      have hConnected := h.accept rfl hAccept
      exact hConnected.same rfl rfl rfl id hConnected.run
  | served =>
      have hConnected := h.disconnect (o := .request k) rfl
      exact hConnected.same rfl rfl rfl id hConnected.run

theorem FilesKept.step (h : s.FilesKept) (hKept : s.SessionsKept) {t : DaemonSessions}
    (hStep : Step s t) : t.FilesKept := by
  cases hStep with
  | main hRun => exact h.runStep hKept hRun
  | handler => exact h.same rfl rfl rfl id h.run
  | cleanup hSweep => exact h.sweepStep hKept hSweep
  | worker hWorker => exact h.workerStep hWorker
  | opened hFree =>
      exact h.connect (o := .registration) rfl (.of_held _ rfl)
        (h.consistent.of_issued rfl rfl fun _ _ => Ledger.issued_openForeign hFree)
        fun object hObject => h.connection _ object rfl hObject
  | closed hForeign =>
      exact h.connect (o := .registration) rfl (.of_held _ rfl)
        (h.consistent.of_issued rfl rfl fun _ _ => Ledger.issued_closeForeign hForeign)
        fun object hObject => h.connection _ object rfl hObject

/-- No step puts a foreign file at a path. -/
theorem FilesKept.runStep_clean (h : s.FilesKept) {t : DaemonSessions} (hRun : RunStep s t)
    {path : List UInt8} (hClean : s.sockets.Clean path) : t.sockets.Clean path := by
  cases hRun with
  | mainCreated | socketCreated => exact hClean
  | @mainInitialized object outcome done sockets hPc hObject hInitialize =>
      have hMode := (h.main object hObject).1
      exact ((UnixSockets.initializeSocket_cases hMode hInitialize).touches hMode).clean path hClean
  | @socketInitialized pid k object outcome done sockets hPc hObject hInitialize =>
      have hMode := (h.session k object hObject).1
      exact ((UnixSockets.initializeSocket_cases hMode hInitialize).touches hMode).clean path hClean
  | accepted hPc hObject hAccept => exact (UnixSockets.Touches.accept hAccept).clean path hClean
  | mainDropped | closed | dropped | erased => exact hClean.reset _
  | joined _ _ _ hJoin =>
      obtain ⟨sessions, rfl⟩ := hJoin.frame
      exact hClean
  | moved | unlocked | locked | cleanupLocked | cleanupStarted | created | inserted | started | assigned
  | told | stopped => exact hClean

theorem FilesKept.step_clean (h : s.FilesKept) {t : DaemonSessions} (hStep : Step s t)
    {path : List UInt8} (hClean : s.sockets.Clean path) : t.sockets.Clean path := by
  cases hStep with
  | main hRun => exact h.runStep_clean hRun hClean
  | cleanup hSweep =>
      cases hSweep with
      | erased => exact hClean.reset _
      | joined _ _ _ hJoin =>
          obtain ⟨sessions, rfl⟩ := hJoin.frame
          exact hClean
      | moved | locked | unlocked | told => exact hClean
  | worker hWorker =>
      cases hWorker with
      | tested => exact hClean
      | accepted _ _ hAccept => exact (UnixSockets.Touches.accept hAccept).clean path hClean
      | served => exact hClean.reset _
  | handler | opened | closed => exact hClean

section Runs

variable {root : Bool} {application : Nat → Bool} {stale directory : List UInt8 → Bool}

theorem filesKept_init : (init root application stale directory).FilesKept := by
  have hFiles : ∀ path serial,
      (init root application stale directory).sockets.files path ≠ some (.bound serial) := by
    intro path serial
    change leftOver stale directory path ≠ _
    unfold leftOver
    split_ifs <;> simp
  refine ⟨⟨⟨nofun, nofun, ?_⟩, fun _ => rfl, ?_⟩, nofun, nofun, nofun, nofun, rfl, nofun, ?_⟩
  · intro fd serial hOpening
    simp only [init] at hOpening
    split_ifs at hOpening
    cases hOpening
  · intro path serial hBound
    exact absurd hBound (hFiles path serial)
  · intro pid k hStored
    simp [init, stored] at hStored

theorem filesKept_of_reachable
    (h : machine.Reachable (init root application stale directory) s) :
    s.SessionsKept ∧ s.FilesKept := by
  refine h.invariant (P := fun s => s.SessionsKept ∧ s.FilesKept)
    ⟨sessionsKept_init root application stale directory, filesKept_init⟩ ?_
  rintro s action t ⟨hKept, hFiles⟩ hStep
  exact ⟨hKept.step (machine_step hStep), hFiles.step hKept (machine_step hStep)⟩

/-- What is bound is bound for the daemon or for a session in the table. -/
theorem FilesKept.bound (h : s.FilesKept) (hKept : s.SessionsKept) (hFree : s.sessionsMutex = none)
    {path : List UInt8} {serial : Nat} (hBound : s.sockets.files path = some (.bound serial)) :
    path = mainPath ∨ ∃ pid, s.stored pid ≠ none ∧ path = Daemon.channelPath pid := by
  obtain ⟨o, object, _, hObject, hServer, rfl, _⟩ := h.consistent.owner path serial hBound
  cases o with
  | main => exact .inl (file_main (h.main object hObject).2)
  | session k =>
      obtain ⟨_, session, hSession, hPath⟩ := h.session k object hObject
      have hUnlocked : s.runPc.locked = false := by
        by_contra hLocked
        have hMain := hKept.mainLocked.mp (by simpa using hLocked)
        rw [hFree] at hMain
        cases hMain
      have hStored := hKept.alive_stored (held_of_unlocked hUnlocked).1 hSession
      exact .inr ⟨session.clientPid, by rw [hStored]; simp, file_channel hPath⟩
  | registration | request k =>
      have hClient := h.connection _ object rfl hObject
      rw [hServer] at hClient
      cases hClient

/-- In every run, while nobody holds `sessions_mutex_`: the daemon's path and those of the
sessions in the table are bound to the descriptors of their own sockets, which are
open and listen, nothing else is bound, and a path is gone whose session was removed,
or where only this daemon could have bound one. -/
theorem socket_files_follow_sessions (root : Bool) (application : Nat → Bool)
    (stale directory : List UInt8 → Bool) {s : DaemonSessions}
    (hReachable : machine.Reachable (init root application stale directory) s)
    (hFree : s.sessionsMutex = none) :
    (s.runPc.serving = true → s.sockets.Serves .main mainPath) ∧
      (∀ pid k, s.stored pid = some k →
        s.sockets.Serves (.session k) (Daemon.channelPath pid)) ∧
      (∀ path serial, s.sockets.files path = some (.bound serial) →
        path = mainPath ∨ ∃ pid, s.stored pid ≠ none ∧ path = Daemon.channelPath pid) ∧
      ∀ before pid, machine.Reachable (init root application stale directory) before →
        machine.Reachable before s →
        before.stored pid ≠ none ∨ before.sockets.Clean (Daemon.channelPath pid) →
        s.stored pid = none → s.sockets.files (Daemon.channelPath pid) = none := by
  obtain ⟨hKept, hFiles⟩ := filesKept_of_reachable hReachable
  refine ⟨hFiles.mainServes, hFiles.sessionServes, fun _ _ => hFiles.bound hKept hFree, ?_⟩
  intro before pid hBefore hLater hOwn hGone
  have hStart := filesKept_of_reachable hBefore
  have hClean : before.sockets.Clean (Daemon.channelPath pid) := by
    rcases hOwn with hStored | hClean
    · obtain ⟨k, hSome⟩ := Option.ne_none_iff_exists'.mp hStored
      exact (hStart.2.sessionServes pid k hSome).clean
    · exact hClean
  have hStays : s.sockets.Clean (Daemon.channelPath pid) := by
    refine (hLater.invariant (P := fun s => (s.SessionsKept ∧ s.FilesKept) ∧
      s.sockets.Clean (Daemon.channelPath pid)) ⟨hStart, hClean⟩ ?_).2
    rintro s action t ⟨⟨hKept, hFiles⟩, hClean⟩ hStep
    have hMoves := machine_step hStep
    exact ⟨⟨hKept.step hMoves, hFiles.step hKept hMoves⟩, hFiles.step_clean hMoves hClean⟩
  by_contra hSome
  obtain ⟨entry, hEntry⟩ := Option.ne_none_iff_exists'.mp hSome
  obtain ⟨serial, rfl⟩ := hStays entry hEntry
  rcases hFiles.bound hKept hFree hEntry with hMain | ⟨other, hOther, hPath⟩
  · exact Daemon.mainPath_ne_channelPath pid hMain.symm
  · rw [Daemon.channelPath_injective hPath] at hGone
    exact hOther hGone

/-- The process dies, its session is erased, and the clean-up thread leaves the mutex. -/
def swept (pid : Int32) : List Action :=
  joined pid ++ [.cleanup [] false, .cleanup [] false]

theorem socket_files_follow_sessions_pid7 : ∃ s t : DaemonSessions,
    machine.run (init true (· < 3) (fun _ => true) fun _ => false) (registered 7) = some s ∧
      machine.run s ((swept 7).drop (registered 7).length) = some t ∧
      s.sockets.Serves (.session 0) (Daemon.channelPath 7) ∧ t.sockets.Serves .main mainPath ∧
      t.sockets.files (Daemon.channelPath 7) = none := by
  obtain ⟨s, hRun⟩ : ∃ s, machine.run (init true (· < 3) (fun _ => true) fun _ => false)
      (registered 7) = some s := ⟨_, rfl⟩
  have hRegistered : s.sessionsMutex = none ∧ s.stored 7 = some 0 := by
    cases hRun
    exact ⟨rfl, rfl⟩
  have hSwept : ∃ t, machine.run s ((swept 7).drop (registered 7).length) = some t ∧
      t.sessionsMutex = none ∧ t.stored 7 = none ∧ t.runPc.serving = true := by
    cases hRun
    exact ⟨_, rfl, rfl, rfl, rfl⟩
  obtain ⟨hFree, hStored⟩ := hRegistered
  obtain ⟨t, hLater, hFreeAgain, hGone, hServing⟩ := hSwept
  have hBoth : machine.run (init true (· < 3) (fun _ => true) fun _ => false)
      (registered 7 ++ (swept 7).drop (registered 7).length) = some t := by
    rw [Machine.run_append, hRun, Option.bind_some, hLater]
  have hServes := (socket_files_follow_sessions true _ _ _ ⟨_, hRun⟩ hFree).2.1 7 0 hStored
  obtain ⟨hMain, _, _, hRemoved⟩ := socket_files_follow_sessions true _ _ _ ⟨_, hBoth⟩ hFreeAgain
  exact ⟨s, t, hRun, hLater, hServes, hMain hServing,
    hRemoved s 7 ⟨_, hRun⟩ ⟨_, hLater⟩ (.inl (by simp [hStored])) hGone⟩

end Runs

end DaemonSessions
end HyCAN
