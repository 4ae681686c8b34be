import HyCAN.Daemon.SocketFiles

/-! The descriptors that the daemon gets from `socket` and `accept`. Each that is open is held by
one object, and no object outlives what it was made for, so that none is left in the end. -/
namespace HyCAN

open Ownership Transition

namespace UnixSockets

variable {Place : Type} [DecidableEq Place] {s t : UnixSockets Place} {o : Place} {object : UnixSocket}

/-- The file is no matter of the ledger. -/
theorem ledger_close_some {fd : Nat} (hFd : object.socketFd = some fd) :
    (s.close o object).ledger = (s.ledger.close fd).forget o := by
  unfold UnixSockets.close removeFile UnixSockets.unlink
  rw [hFd]
  split_ifs <;> rfl

theorem covered_close (h : s.Consistent) (hObject : s.objects o = some object) :
    (s.close o object).ledger.Covered ↔ s.ledger.Covered := by
  cases hFd : object.socketFd with
  | none => rw [ledger_close hFd]
  | some fd =>
      obtain ⟨serial, hHeld⟩ := h.held_eq_some hObject hFd
      rw [ledger_close_some hFd]
      exact h.sound.covered_close_forget_iff hHeld

/-- A destructor closes what its object holds. -/
theorem covered_reset (h : s.Consistent) : (s.reset o).ledger.Covered ↔ s.ledger.Covered := by
  unfold reset
  split
  · exact Iff.rfl
  · next hObject => exact covered_close h hObject

/-- A connection is accepted into an object that was not there. -/
theorem covered_accept (h : s.Consistent) {new : Place} {outcome : Option Nat} {came : Bool}
    (hNew : s.objects new = none) (hAccept : s.accept object new outcome = some (came, t)) :
    t.ledger.Covered ↔ s.ledger.Covered := by
  cases accept_cases hAccept with
  | nothing => exact Iff.rfl
  | connection hFree =>
      have hHeld := h.held_eq_none (o := new) (by simp [hNew])
      exact Ledger.covered_issue_iff hHeld hFree

/-- Where no connection came, nothing has changed. -/
theorem accept_nothing {new : Place} {outcome : Option Nat}
    (hAccept : s.accept object new outcome = some (false, t)) : t = s := by
  unfold UnixSockets.accept at hAccept
  split_ifs at hAccept
  · simpa [eq_comm] using hAccept
  · cases outcome with
    | none => simpa [eq_comm] using hAccept
    | some fd =>
        dsimp only at hAccept
        split_ifs at hAccept
        simp at hAccept

/-- What `initialize` of a server that has no descriptor does to the ledger. -/
inductive InitializeLedger (l : Ledger Place) (o : Place) : Ledger Place → Prop where
  | nothing : InitializeLedger l o (l.forget o)
  | closes {fd : Nat} (hFree : l.openings fd = none) :
      InitializeLedger l o (((l.issue o fd).close fd).forget o)
  | keeps {fd : Nat} (hFree : l.openings fd = none) : InitializeLedger l o (l.issue o fd)

omit [DecidableEq Place] in
theorem ledger_unlink (path : List UInt8) : (s.unlink path).ledger = s.ledger := by
  unfold UnixSockets.unlink
  split_ifs <;> rfl

theorem ledger_initialize {done : Bool} (hStep : InitializeStep s o object done t) :
    InitializeLedger s.ledger o t.ledger := by
  cases hStep with
  | noSocket => exact .nothing
  | @tooLong fd hFree =>
      rw [ledger_close_some rfl]
      exact .closes hFree
  | @server fd _ _ hFree hServer =>
      cases hServer with
      | notBound =>
          rw [ledger_close_some rfl, ledger_unlink]
          exact .closes hFree
      | notListening hBind =>
          obtain ⟨_, rfl⟩ := bind_cases hBind
          rw [ledger_close_some rfl]
          dsimp only
          rw [ledger_unlink]
          exact .closes hFree
      | listens hBind =>
          obtain ⟨_, rfl⟩ := bind_cases hBind
          dsimp only [UnixSockets.put]
          rw [ledger_unlink]
          exact .keeps hFree

theorem covered_initialize (h : s.Consistent) {done : Bool} (hObject : s.objects o = some object)
    (hFd : object.socketFd = none) (hStep : InitializeStep s o object done t)
    (hCovered : s.ledger.Covered) : t.ledger.Covered := by
  have hHeld := h.held_eq_none (o := o) (by simp [hObject, hFd])
  have hLedger := ledger_initialize hStep
  generalize t.ledger = after at hLedger ⊢
  cases hLedger with
  | nothing => exact (h.sound.covered_forget_iff o).mpr ⟨hCovered, hHeld⟩
  | @closes fd hFree =>
      have hIssued : (s.ledger.issue o fd).held o = some (fd, s.ledger.nextSerial) := Function.update_self ..
      rw [(h.sound.issue o hFree).covered_close_forget_iff hIssued]
      exact (Ledger.covered_issue_iff hHeld hFree).mpr hCovered
  | keeps hFree => exact (Ledger.covered_issue_iff hHeld hFree).mpr hCovered

end UnixSockets

/-- A registration has its connection. -/
def RunPc.connected : RunPc → Bool
  | .receiving | .locking _ | .looking _ | .creating _ | .creatingSocket .. | .initializing ..
  | .storing .. | .dropping _ | .starting .. | .assigning .. | .responding | .closing => true
  | .creatingMain | .initializingMain | .startingCleanup | .droppingMain | .entering | .testing
  | .accepting | .cleanupLocking | .cleaning _ | .joining .. | .clearing | .returned | .stopping _
  | .destroyingSessions | .finished => false

/-- The constructor has made the main socket, and it is not destroyed. -/
def RunPc.hasMain : RunPc → Bool
  | .creatingMain | .finished => false
  | _ => true

namespace DaemonSessions

variable (s : DaemonSessions)

/-- What an object at the place is for is there. -/
def InUse : SocketPlace → Prop
  | .main => s.runPc.hasMain = true
  | .registration => s.runPc.connected = true
  | .session k => (s.sessions k).isSome = true
  | .request k => s.workers k = some .serving

/-- Of the descriptors, in every reachable state. -/
structure DescriptorsKept : Prop where
  covered : s.sockets.ledger.Covered
  used : ∀ o object, s.sockets.objects o = some object → s.InUse o

variable {s} {t : DaemonSessions}

theorem DescriptorsKept.absent (h : s.DescriptorsKept) {o : SocketPlace} (hNot : ¬s.InUse o) :
    s.sockets.objects o = none := by
  by_contra hSome
  obtain ⟨object, hObject⟩ := Option.ne_none_iff_exists'.mp hSome
  exact hNot (h.used o object hObject)

/-- The sockets stay, and so does what they are for. -/
theorem DescriptorsKept.same (h : s.DescriptorsKept) (hSockets : t.sockets = s.sockets)
    (hUsed : ∀ o, s.InUse o → t.InUse o) : t.DescriptorsKept := by
  refine ⟨by rw [hSockets]; exact h.covered, ?_⟩
  intro o object hObject
  rw [hSockets] at hObject
  exact hUsed o (h.used o object hObject)

/-- One object changes, and what it is for is there if the object is. -/
theorem DescriptorsKept.change (h : s.DescriptorsKept) {o : SocketPlace}
    {touched : Option (List UInt8)} (hTouches : s.sockets.Touches t.sockets o touched)
    (hCovered : t.sockets.ledger.Covered) (hSelf : t.sockets.objects o ≠ none → t.InUse o)
    (hUsed : ∀ other, other ≠ o → s.InUse other → t.InUse other) : t.DescriptorsKept := by
  refine ⟨hCovered, ?_⟩
  intro other object hObject
  rcases eq_or_ne other o with rfl | hNe
  · exact hSelf (by simp [hObject])
  · exact hUsed other hNe (h.used other object ((hTouches.objects other hNe).symm.trans hObject))

/-- The destruction of an object. -/
theorem DescriptorsKept.reset (h : s.DescriptorsKept) (hConsistent : s.sockets.Consistent)
    (o : SocketPlace) (hSockets : t.sockets = s.sockets.reset o)
    (hUsed : ∀ other, other ≠ o → s.InUse other → t.InUse other) : t.DescriptorsKept := by
  refine ⟨?_, ?_⟩
  · rw [hSockets, UnixSockets.covered_reset hConsistent]
    exact h.covered
  · intro other object hObject
    rw [hSockets] at hObject
    rcases eq_or_ne other o with rfl | hNe
    · rw [UnixSockets.object_reset] at hObject
      cases hObject
    · refine hUsed other hNe (h.used other object ?_)
      unfold UnixSockets.reset at hObject
      split at hObject
      · exact hObject
      · rwa [(UnixSockets.Touches.destroy ..).objects other hNe] at hObject

theorem DescriptorsKept.accept (h : s.DescriptorsKept) (hConsistent : s.sockets.Consistent)
    {object : UnixSocket} {new : SocketPlace} {outcome : Option Nat} {came : Bool}
    (hNew : ¬s.InUse new) (hAccept : s.sockets.accept object new outcome = some (came, t.sockets))
    (hSelf : came = true → t.InUse new) (hUsed : ∀ other, s.InUse other → t.InUse other) :
    t.DescriptorsKept := by
  have hAbsent := h.absent hNew
  refine h.change (.accept hAccept) ?_ ?_ fun other _ => hUsed other
  · exact (UnixSockets.covered_accept hConsistent hAbsent hAccept).mpr h.covered
  · intro hSome
    cases came with
    | true => exact hSelf rfl
    | false =>
        rw [UnixSockets.accept_nothing hAccept] at hSome
        exact absurd hAbsent hSome

/-- A first `initialize` of a server that is there. -/
theorem DescriptorsKept.initialize (h : s.DescriptorsKept) (hConsistent : s.sockets.Consistent)
    {o : SocketPlace} {object : UnixSocket} {outcome : InitializeOutcome} {done : Bool}
    (hObject : s.sockets.objects o = some object) (hMode : object.mode = .server)
    (hFd : object.socketFd = none)
    (hInitialize : s.sockets.initializeSocket o object outcome = some (done, t.sockets))
    (hUsed : ∀ other, s.InUse other → t.InUse other) : t.DescriptorsKept := by
  have hStep := UnixSockets.initializeSocket_cases hMode hInitialize
  refine h.change (hStep.touches hMode) ?_ (fun _ => hUsed o (h.used o object hObject)) fun other _ => hUsed other
  exact UnixSockets.covered_initialize hConsistent hObject hFd hStep h.covered

/-- What objects are for stays, if the main thread, the sessions and the workers stay at it. -/
theorem InUse.mono {o : SocketPlace} (h : s.InUse o)
    (hMain : s.runPc.hasMain = true → t.runPc.hasMain = true)
    (hConnected : s.runPc.connected = true → t.runPc.connected = true)
    (hSessions : ∀ k, o = .session k → (s.sessions k).isSome = true → (t.sessions k).isSome = true)
    (hWorkers : ∀ k, o = .request k → s.workers k = some .serving → t.workers k = some .serving) :
    t.InUse o := by
  cases o with
  | main => exact hMain h
  | registration => exact hConnected h
  | session k => exact hSessions k rfl h
  | request k => exact hWorkers k rfl h

/-- So it does where only the main thread moves. -/
theorem InUse.move {o : SocketPlace} (h : s.InUse o) (hSessions : t.sessions = s.sessions)
    (hWorkers : t.workers = s.workers) (hMain : s.runPc.hasMain = true → t.runPc.hasMain = true)
    (hConnected : s.runPc.connected = true → t.runPc.connected = true) : t.InUse o := by
  apply h.mono hMain hConnected
  · intro k _ hSession
    rwa [hSessions]
  · intro k _ hWorker
    rwa [hWorkers]

theorem RunMove.uses {pc : RunPc} (hMove : RunMove s pc) :
    (s.runPc.hasMain = true → pc.hasMain = true) ∧ (s.runPc.connected = true → pc.connected = true) := by
  cases hMove <;> simp [*, RunPc.hasMain, RunPc.connected]

theorem RunUnlock.uses {pc : RunPc} (hUnlock : RunUnlock s pc) :
    (s.runPc.hasMain = true → pc.hasMain = true) ∧ (s.runPc.connected = true → pc.connected = true) := by
  cases hUnlock <;> simp [*, RunPc.hasMain, RunPc.connected]

theorem isSome_update {k j : Nat} (session : SessionObject) (h : (s.sessions j).isSome = true) :
    (Function.update s.sessions k (some session) j).isSome = true := by
  rcases eq_or_ne j k with rfl | hNe
  · simp
  · simpa [hNe] using h

theorem InUse.setSession {o : SocketPlace} (h : s.InUse o) (k : Nat) (session : SessionObject) :
    (s.setSession k session).InUse o :=
  h.mono id id (fun _ _ => isSome_update session) fun _ _ => id

theorem InUse.join {o : SocketPlace} {k : Nat} {session : SessionObject} (h : s.InUse o)
    (hJoin : JoinStep s k session t) : t.InUse o := by
  cases hJoin with
  | nothing => exact h
  | joined => exact h.setSession k _

/-- The session that goes is the only one to go. -/
theorem InUse.dropSession {o : SocketPlace} (h : s.InUse o) {k : Nat} (hNe : o ≠ .session k) :
    (s.dropSession k).InUse o := by
  refine h.mono id id ?_ fun _ _ => id
  rintro j rfl hSession
  have hOther : j ≠ k := fun hSame => hNe (by rw [hSame])
  change (Function.update s.sessions k none j).isSome = true
  rwa [Function.update_of_ne hOther]

/-- A worker that does not serve leaves its connection's place unused. -/
theorem InUse.setWorker {o : SocketPlace} (h : s.InUse o) {k : Nat} (hNot : s.workers k ≠ some .serving)
    (pc : SessionWorkerPc) : (s.setWorker k pc).InUse o := by
  refine h.mono id id (fun _ _ => id) ?_
  intro j _ hWorker
  have hOther : j ≠ k := by
    rintro rfl
    exact hNot hWorker
  change Function.update s.workers k (some pc) j = some .serving
  rwa [Function.update_of_ne hOther]

theorem DescriptorsKept.runStep (h : s.DescriptorsKept) (hKept : s.SessionsKept) (hFiles : s.FilesKept)
    (hRun : RunStep s t) : t.DescriptorsKept := by
  have hConsistent := hFiles.consistent
  cases hRun with
  | moved hMove => exact h.same rfl fun o hUse => hUse.move rfl rfl hMove.uses.1 hMove.uses.2
  | unlocked hUnlock => exact h.same rfl fun o hUse => hUse.move rfl rfl hUnlock.uses.1 hUnlock.uses.2
  | locked hPc | cleanupLocked hPc | cleanupStarted hPc | inserted hPc =>
      refine h.same rfl fun o hUse => hUse.move rfl rfl ?_ ?_ <;> simp [hPc, RunPc.hasMain, RunPc.connected]
  | stopped _ _ hPc hNext =>
      refine h.same rfl fun o hUse => hUse.move rfl rfl ?_ ?_
      · rcases hNext with rfl | ⟨again, rfl⟩ <;> exact fun _ => rfl
      · simp [hPc, RunPc.connected]
  | mainCreated hPc =>
      refine h.change (.put s.sockets .main _ none) h.covered (fun _ => rfl) fun other hNe hUse => ?_
      refine hUse.move rfl rfl (fun _ => rfl) ?_
      simp [hPc, RunPc.connected]
  | @mainInitialized object _ done _ hPc hObject hInitialize =>
      have hFacts := hFiles.run
      rw [hPc] at hFacts
      refine h.initialize hConsistent hObject (hFiles.main object hObject).1 (hFacts object hObject)
        hInitialize fun other hUse => hUse.move rfl rfl ?_ ?_
      · cases done <;> exact fun _ => rfl
      · simp [hPc, RunPc.connected]
  | mainDropped hPc =>
      refine h.reset hConsistent .main rfl fun other hNe hUse => ?_
      cases other with
      | main => exact absurd rfl hNe
      | registration => simp [InUse, hPc, RunPc.connected] at hUse
      | session k | request k => exact hUse
  | @accepted _ _ came _ hPc _ hAccept =>
      have hNew : ¬s.InUse .registration := by
        simp [InUse, hPc, RunPc.connected]
      refine h.accept hConsistent hNew hAccept ?_ fun other hUse => hUse.move rfl rfl ?_ ?_
      · rintro rfl
        rfl
      · cases came <;> exact fun _ => rfl
      · simp [hPc, RunPc.connected]
  | closed hPc =>
      refine h.reset hConsistent .registration rfl fun other hNe hUse => ?_
      cases other with
      | main => rfl
      | registration => exact absurd rfl hNe
      | session k | request k => exact hUse
  | @created pid hPc =>
      refine h.same rfl fun o hUse => ?_
      refine (hUse.setSession s.nextSession ⟨pid, Daemon.generateClientChannelName pid, .null, true⟩).move
        rfl rfl (fun _ => rfl) fun _ => rfl
  | @socketCreated pid k session hPc hSession =>
      refine h.change (.put s.sockets (.session k) _ none) h.covered ?_ fun other hNe hUse => ?_
      · exact fun _ => by simp [InUse, hSession]
      · exact hUse.move rfl rfl (fun _ => rfl) fun _ => rfl
  | @socketInitialized _ k object _ done _ hPc hObject hInitialize =>
      have hFacts := hFiles.run
      rw [hPc] at hFacts
      refine h.initialize hConsistent hObject (hFiles.session k object hObject).1 (hFacts object hObject)
        hInitialize fun other hUse => hUse.move rfl rfl ?_ ?_
      · cases done <;> exact fun _ => rfl
      · cases done <;> exact fun _ => rfl
  | @dropped k hPc =>
      refine h.reset hConsistent (.session k) rfl fun other hNe hUse => ?_
      exact (hUse.dropSession hNe).move rfl rfl (fun _ => rfl) fun _ => rfl
  | @started _ k hPc =>
      have hFacts := hKept.run
      rw [hPc] at hFacts
      have hNot : s.workers k ≠ some .serving := by
        rw [hFacts.2]
        exact nofun
      refine h.same rfl fun o hUse => ?_
      exact (hUse.setWorker hNot .testing).move rfl rfl (fun _ => rfl) fun _ => rfl
  | @assigned _ k session hPc hSession =>
      refine h.same rfl fun o hUse => ?_
      exact (hUse.setSession k { session with workerThread := .joinable }).move rfl rfl (fun _ => rfl) fun _ => rfl
  | @told _ _ k session hPc =>
      refine h.same rfl fun o hUse => ?_
      refine (hUse.setSession k { session with running := false }).move rfl rfl (fun _ => rfl) ?_
      simp [DaemonSessions.setSession, hPc, RunPc.connected]
  | joined hPc _ _ hJoin =>
      have hJoined := hJoin.frame
      obtain ⟨sessions, rfl⟩ := hJoined
      refine h.same rfl fun o hUse => ?_
      refine (hUse.join hJoin).move rfl rfl (fun _ => rfl) ?_
      simp [hPc, RunPc.connected]
  | @erased _ k =>
      refine h.reset hConsistent (.session k) rfl fun other hNe hUse => ?_
      exact (hUse.dropSession hNe).move rfl rfl id id

theorem DescriptorsKept.sweepStep (h : s.DescriptorsKept) (hFiles : s.FilesKept) (hSweep : SweepStep s t) :
    t.DescriptorsKept := by
  cases hSweep with
  | moved | locked | unlocked => exact h.same rfl fun o hUse => hUse.move rfl rfl id id
  | @told _ _ k session =>
      refine h.same rfl fun o hUse => ?_
      exact (hUse.setSession k { session with running := false }).move rfl rfl id id
  | joined _ _ _ hJoin =>
      obtain ⟨sessions, rfl⟩ := hJoin.frame
      exact h.same rfl fun o hUse => (hUse.join hJoin).move rfl rfl id id
  | @erased _ _ k =>
      refine h.reset hFiles.consistent (.session k) rfl fun other hNe hUse => ?_
      exact (hUse.dropSession hNe).move rfl rfl id id

theorem DescriptorsKept.workerStep (h : s.DescriptorsKept) (hFiles : s.FilesKept) {k : Nat}
    (hWorker : WorkerStep s k t) : t.DescriptorsKept := by
  cases hWorker with
  | tested pc hPc =>
      have hNot : s.workers k ≠ some .serving := by simp [hPc]
      exact h.same rfl fun o hUse => hUse.setWorker hNot pc
  | @accepted _ _ came _ hPc _ hAccept =>
      have hNot : s.workers k ≠ some .serving := by simp [hPc]
      have hNew : ¬s.InUse (.request k) := hNot
      refine h.accept hFiles.consistent hNew hAccept ?_ fun other hUse => ?_
      · rintro rfl
        exact Function.update_self ..
      · exact (hUse.setWorker hNot (if came then .serving else .testing)).move rfl rfl id id
  | served hPc =>
      refine h.reset hFiles.consistent (.request k) rfl fun other hNe hUse => ?_
      refine hUse.mono id id (fun _ _ => id) ?_
      rintro j rfl hServing
      have hOther : j ≠ k := fun hSame => hNe (by rw [hSame])
      exact (Function.update_of_ne hOther _ _).trans hServing

theorem DescriptorsKept.step (h : s.DescriptorsKept) (hKept : s.SessionsKept) (hFiles : s.FilesKept)
    (hStep : Step s t) : t.DescriptorsKept := by
  cases hStep with
  | main hRun => exact h.runStep hKept hFiles hRun
  | handler => exact h.same rfl fun o hUse => hUse.move rfl rfl id id
  | cleanup hSweep => exact h.sweepStep hFiles hSweep
  | worker hWorker => exact h.workerStep hFiles hWorker
  | @opened fd hFree =>
      have hIssued : (s.sockets.ledger.openForeign fd).Covered ↔ s.sockets.ledger.Covered :=
        Ledger.covered_iff_of_issued rfl fun _ _ => Ledger.issued_openForeign hFree
      exact ⟨hIssued.mpr h.covered, h.used⟩
  | @closed fd hForeign =>
      have hIssued : (s.sockets.ledger.close fd).Covered ↔ s.sockets.ledger.Covered :=
        Ledger.covered_iff_of_issued rfl fun _ _ => Ledger.issued_closeForeign hForeign
      exact ⟨hIssued.mpr h.covered, h.used⟩

section Runs

variable {root : Bool} {application : Nat → Bool} {stale directory : List UInt8 → Bool}

theorem descriptorsKept_of_reachable (h : machine.Reachable (init root application stale directory) s) :
    s.SessionsKept ∧ s.FilesKept ∧ s.DescriptorsKept := by
  refine h.invariant (P := fun s => s.SessionsKept ∧ s.FilesKept ∧ s.DescriptorsKept) ?_ ?_
  · refine ⟨sessionsKept_init root application stale directory, filesKept_init, ?_, nofun⟩
    intro fd serial hOpening
    simp only [init] at hOpening
    split_ifs at hOpening
    cases hOpening
  · intro s action t hBefore hStep
    obtain ⟨hKept, hFiles, hDescriptors⟩ := hBefore
    have hCases := machine_step hStep
    exact ⟨hKept.step hCases, hFiles.step hKept hCases, hDescriptors.step hKept hFiles hCases⟩

end Runs

variable (s)

/-- The descriptor is open, and it came from `socket` or `accept`. -/
def Open (fd : Nat) : Prop :=
  ∃ serial, s.sockets.ledger.openings fd = some (.issued serial)

def HasFd (o : SocketPlace) (fd : Nat) : Prop :=
  ∃ object, s.sockets.objects o = some object ∧ object.socketFd = some fd

variable {s}

theorem HasFd.inj {o : SocketPlace} {fd other : Nat} (h : s.HasFd o fd) (hOther : s.HasFd o other) :
    fd = other := by
  obtain ⟨object, hObject, hFd⟩ := h
  obtain ⟨same, hSame, hAgain⟩ := hOther
  rw [hObject, Option.some.injEq] at hSame
  rw [← hSame, hFd, Option.some.injEq] at hAgain
  exact hAgain

theorem HasFd.held (hConsistent : s.sockets.Consistent) {o : SocketPlace} {fd : Nat} (h : s.HasFd o fd) :
    ∃ serial, s.sockets.ledger.held o = some (fd, serial) ∧
      s.sockets.ledger.openings fd = some (.issued serial) := by
  obtain ⟨object, hObject, hFd⟩ := h
  obtain ⟨serial, hHeld⟩ := hConsistent.held_eq_some hObject hFd
  exact ⟨serial, hHeld, hConsistent.sound.live o fd serial hHeld⟩

theorem HasFd.place_unique (hConsistent : s.sockets.Consistent) {o other : SocketPlace} {fd : Nat}
    (h : s.HasFd o fd) (hOther : s.HasFd other fd) : o = other := by
  obtain ⟨serial, hHeld, hOpening⟩ := h.held hConsistent
  obtain ⟨again, hAgain, hSame⟩ := hOther.held hConsistent
  rw [hOpening] at hSame
  cases hSame
  exact hConsistent.sound.alone o other fd serial hHeld hAgain

/-- What is open has its object. -/
theorem DescriptorsKept.holder (h : s.DescriptorsKept) (hConsistent : s.sockets.Consistent) {fd : Nat}
    (hOpen : s.Open fd) : ∃ o, s.InUse o ∧ s.HasFd o fd := by
  obtain ⟨serial, hOpening⟩ := hOpen
  obtain ⟨o, hHeld⟩ := h.covered fd serial hOpening
  have hFd := hConsistent.descriptors o
  rw [hHeld] at hFd
  obtain ⟨object, hObject, hSame⟩ := Option.bind_eq_some_iff.mp hFd.symm
  exact ⟨o, h.used o object hObject, object, hObject, hSame⟩

/-- After the destructor there is nothing that an object could be for. -/
theorem SessionsKept.unused_of_finished (h : s.SessionsKept) (hPc : s.runPc = .finished) (o : SocketPlace) :
    ¬s.InUse o := by
  have hNone : ∀ k, s.sessions k = none := by
    intro k
    by_contra hSome
    obtain ⟨session, hSession⟩ := Option.ne_none_iff_exists'.mp hSome
    have hStored := h.alive_stored (by rw [hPc]; rfl) hSession
    have hRun := h.run
    rw [hPc] at hRun
    rw [hRun session.clientPid] at hStored
    cases hStored
  cases o with
  | main => simp [InUse, hPc, RunPc.hasMain]
  | registration => simp [InUse, hPc, RunPc.connected]
  | session k => simp [InUse, hNone k]
  | request k =>
      intro hServing
      change s.workers k = some .serving at hServing
      obtain ⟨session, hSession, _⟩ := h.worker k (by simp [Idle, hServing])
      rw [hNone k] at hSession
      cases hSession

/-- In every run: what the daemon got from `socket` or `accept` and is open is the descriptor of
one object, and that is the main socket of a daemon that is not destroyed, the connection of the
registration at hand, the socket of a session that exists or the connection that a worker
serves. When the destructor or a failed constructor has ended, none is open and no path is bound. -/
theorem descriptors_accounted (root : Bool) (application : Nat → Bool)
    (stale directory : List UInt8 → Bool) {s : DaemonSessions}
    (hReachable : machine.Reachable (init root application stale directory) s) :
    (∀ fd, s.Open fd ↔ ∃ o, s.InUse o ∧ s.HasFd o fd ∧ ∀ other, s.HasFd other fd → other = o) ∧
      (s.runPc = .finished → (∀ fd, ¬s.Open fd) ∧
        ∀ path serial, s.sockets.files path ≠ some (.bound serial)) := by
  obtain ⟨hKept, hFiles, hDescriptors⟩ := descriptorsKept_of_reachable hReachable
  have hConsistent := hFiles.consistent
  refine ⟨?_, ?_⟩
  · intro fd
    constructor
    · intro hOpen
      obtain ⟨o, hUse, hFd⟩ := hDescriptors.holder hConsistent hOpen
      exact ⟨o, hUse, hFd, fun other hOther => hOther.place_unique hConsistent hFd⟩
    · rintro ⟨o, _, hFd, _⟩
      obtain ⟨serial, _, hOpening⟩ := hFd.held hConsistent
      exact ⟨serial, hOpening⟩
  · intro hPc
    have hUnused := hKept.unused_of_finished hPc
    refine ⟨?_, ?_⟩
    · intro fd hOpen
      obtain ⟨o, hUse, _⟩ := hDescriptors.holder hConsistent hOpen
      exact hUnused o hUse
    · intro path serial hBound
      obtain ⟨o, object, _, hObject, _⟩ := hConsistent.owner path serial hBound
      exact hUnused o (hDescriptors.used o object hObject)

/-- A process has registered. -/
theorem descriptors_accounted_pid7 : ∃ s : DaemonSessions,
    machine.run (init true (· < 3) (fun _ => false) fun _ => false) (registered 7) = some s ∧
      s.Open 5 ∧ ∃ o, s.InUse o ∧ s.HasFd o 5 ∧ ∀ other, s.HasFd other 5 → other = o := by
  obtain ⟨s, hRun⟩ : ∃ s, machine.run (init true (· < 3) (fun _ => false) fun _ => false)
      (registered 7) = some s := ⟨_, rfl⟩
  have hOpen : s.Open 5 := by
    cases hRun
    exact ⟨_, rfl⟩
  exact ⟨s, hRun, hOpen, ((descriptors_accounted true _ _ _ ⟨_, hRun⟩).1 5).mp hOpen⟩

section Bound

/-- The places that an object can be at. The session that is being registered has no worker. -/
def places (s : DaemonSessions) : List SocketPlace :=
  [.main, .registration] ++ (s.runPc.held.toList.map .session ++
    s.clientSessions.entries.flatMap fun entry => [.session entry.2, .request entry.2])

theorem length_places_le (s : DaemonSessions) :
    s.places.length ≤ 2 * s.clientSessions.keys.length + 3 := by
  have hHeld : s.runPc.held.toList.length ≤ 1 := by
    cases s.runPc.held <;> simp
  have hKeys : s.clientSessions.keys.length = s.clientSessions.entries.length := by
    simp [AList.keys, List.keys]
  have hEntries (entries : List (Sigma fun _ : Int32 => Nat)) :
      (entries.flatMap fun entry => [SocketPlace.session entry.2, .request entry.2]).length =
        2 * entries.length := by
    induction entries with
    | nil => rfl
    | cons entry rest ih =>
        rw [List.flatMap_cons, List.length_append, ih, List.length_cons, List.length_cons]
        simp
        omega
  rw [places, List.length_append, List.length_append, List.length_map, hEntries, hKeys]
  simp only [List.length_cons, List.length_nil]
  omega

/-- The session that is being registered has no worker yet. -/
theorem SessionsKept.workers_held (h : s.SessionsKept) {k : Nat} (hHeld : s.runPc.held = some k) :
    s.workers k = none := by
  have hRun := h.run
  cases hPc : s.runPc with
  | creatingSocket pid other | initializing pid other | storing pid other =>
      rw [hPc] at hRun hHeld
      cases hHeld
      exact hRun.2.1
  | dropping other =>
      rw [hPc] at hRun hHeld
      cases hHeld
      obtain ⟨pid, hUnstored⟩ := hRun
      exact hUnstored.2.1
  | _ =>
      rw [hPc] at hHeld
      cases hHeld

theorem mem_places_of_stored {pid : Int32} {k : Nat} (hStored : s.stored pid = some k) {o : SocketPlace}
    (hPlace : o = .session k ∨ o = .request k) : o ∈ s.places := by
  have hEntry : (⟨pid, k⟩ : Sigma fun _ : Int32 => Nat) ∈ s.clientSessions.entries :=
    AList.mem_lookup_iff.mp hStored
  apply List.mem_append_right
  apply List.mem_append_right
  exact List.mem_flatMap.mpr ⟨⟨pid, k⟩, hEntry, by simpa using hPlace⟩

theorem SessionsKept.mem_places (h : s.SessionsKept) {o : SocketPlace} (hUse : s.InUse o) : o ∈ s.places := by
  cases o with
  | main | registration => simp [places]
  | session k =>
      obtain ⟨session, hSession⟩ := Option.isSome_iff_exists.mp hUse
      rcases h.alive k session hSession with hStored | hHeld
      · exact mem_places_of_stored hStored (.inl rfl)
      · simp [places, hHeld]
  | request k =>
      have hServing : s.workers k = some .serving := hUse
      obtain ⟨session, hSession, _⟩ := h.worker k (by simp [Idle, hServing])
      rcases h.alive k session hSession with hStored | hHeld
      · exact mem_places_of_stored hStored (.inr rfl)
      · have hNone := h.workers_held hHeld
        rw [hNone] at hServing
        cases hServing

/-- In every run, the daemon has no more than three descriptors of sockets open besides the two of
each client in the table, the one that its session listens on and the one that it serves. -/
theorem descriptors_le (root : Bool) (application : Nat → Bool) (stale directory : List UInt8 → Bool)
    {s : DaemonSessions} (hReachable : machine.Reachable (init root application stale directory) s)
    {fds : List Nat} (hDistinct : fds.Nodup) (hOpen : ∀ fd ∈ fds, s.Open fd) :
    fds.length ≤ 2 * s.clientSessions.keys.length + 3 := by
  obtain ⟨hKept, hFiles, hDescriptors⟩ := descriptorsKept_of_reachable hReachable
  have hHolder : ∀ fd, ∃ o, fd ∈ fds → s.InUse o ∧ s.HasFd o fd := by
    intro fd
    by_cases hMem : fd ∈ fds
    · obtain ⟨o, hUse, hFd⟩ := hDescriptors.holder hFiles.consistent (hOpen fd hMem)
      exact ⟨o, fun _ => ⟨hUse, hFd⟩⟩
    · exact ⟨.main, fun hNot => absurd hNot hMem⟩
  choose place hPlace using hHolder
  have hPlaces : (fds.map place).Nodup := by
    apply hDistinct.map_on
    intro fd hFd other hOther hSame
    exact (hPlace fd hFd).2.inj (hSame ▸ (hPlace other hOther).2)
  have hSubset : fds.map place ⊆ s.places := by
    intro o hMem
    obtain ⟨fd, hFd, rfl⟩ := List.mem_map.mp hMem
    exact hKept.mem_places (hPlace fd hFd).1
  calc
    fds.length = (fds.map place).length := (List.length_map place).symm
    _ ≤ s.places.length := (hPlaces.subperm hSubset).length_le
    _ ≤ 2 * s.clientSessions.keys.length + 3 := length_places_le s

theorem descriptors_le_pid7 : ∃ s : DaemonSessions,
    machine.run (init true (· < 3) (fun _ => false) fun _ => false) (registered 7) = some s ∧
      (∀ fd ∈ [3, 5], s.Open fd) ∧ [3, 5].length ≤ 2 * s.clientSessions.keys.length + 3 := by
  obtain ⟨s, hRun⟩ : ∃ s, machine.run (init true (· < 3) (fun _ => false) fun _ => false)
      (registered 7) = some s := ⟨_, rfl⟩
  have hOpen : s.Open 3 ∧ s.Open 5 := by
    cases hRun
    exact ⟨⟨_, rfl⟩, _, rfl⟩
  have hBoth : ∀ fd ∈ [3, 5], s.Open fd := by
    simpa using hOpen
  exact ⟨s, hRun, hBoth, descriptors_le true _ _ _ ⟨_, hRun⟩ (by decide) hBoth⟩

end Bound

end DaemonSessions
end HyCAN
