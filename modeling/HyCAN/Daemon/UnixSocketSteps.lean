import HyCAN.Daemon.UnixSocket

/-! What the operations on a `UnixSocket` do to the descriptors and the files, and what
they leave alone. -/
namespace HyCAN

open Ownership

/-- The path that the operations on the object may change. -/
def UnixSocket.touched (object : UnixSocket) : Option (List UInt8) :=
  if object.mode = .server then some object.file else none

/-- The path of a server is not empty, so that `close` removes its file. -/
def UnixSocket.Named (object : UnixSocket) : Prop :=
  object.mode = .server → object.socketPath ≠ []

namespace UnixSockets

variable {Place : Type}

/-- An object has what `socket_fd_` says, and a path is bound for a server of that path
which still has the descriptor. -/
structure Consistent (s : UnixSockets Place) : Prop where
  sound : s.ledger.Sound
  descriptors : ∀ o, (s.ledger.held o).map Prod.fst = (s.objects o).bind (·.socketFd)
  owner : ∀ path serial, s.files path = some (.bound serial) → ∃ o object fd,
    s.objects o = some object ∧ object.mode = .server ∧ object.file = path ∧
      s.ledger.held o = some (fd, serial)

/-- The path is bound to the very descriptor of the object, which is open and listens. -/
def Serves (s : UnixSockets Place) (o : Place) (path : List UInt8) : Prop :=
  ∃ object fd serial, s.objects o = some object ∧ object.mode = .server ∧
    object.connected = true ∧ object.file = path ∧ object.socketFd = some fd ∧
    s.ledger.held o = some (fd, serial) ∧ s.ledger.openings fd = some (.issued serial) ∧
    s.listening serial = true ∧ s.files path = some (.bound serial)

/-- Nothing is at the path but what this process has bound there. -/
def Clean (s : UnixSockets Place) (path : List UInt8) : Prop :=
  ∀ entry, s.files path = some entry → ∃ serial, entry = .bound serial

/-- From `s` to `t` nothing changes but one object and one path. -/
structure Touches (s t : UnixSockets Place) (o : Place) (touched : Option (List UInt8)) : Prop where
  objects : ∀ other, other ≠ o → t.objects other = s.objects other
  held : ∀ other, other ≠ o → t.ledger.held other = s.ledger.held other
  files : ∀ path, some path ≠ touched → t.files path = s.files path
  listening : ∀ serial, s.listening serial = true → t.listening serial = true
  clean : ∀ path, s.Clean path → t.Clean path

variable {s t u : UnixSockets Place} {o : Place} {touched : Option (List UInt8)}

theorem Touches.refl (s : UnixSockets Place) (o : Place) (touched : Option (List UInt8)) :
    s.Touches s o touched :=
  ⟨fun _ _ => rfl, fun _ _ => rfl, fun _ _ => rfl, fun _ => id, fun _ => id⟩

theorem Touches.trans (h : s.Touches t o touched) (hNext : t.Touches u o touched) :
    s.Touches u o touched where
  objects other hNe := (hNext.objects other hNe).trans (h.objects other hNe)
  held other hNe := (hNext.held other hNe).trans (h.held other hNe)
  files path hNe := (hNext.files path hNe).trans (h.files path hNe)
  listening serial hBefore := hNext.listening serial (h.listening serial hBefore)
  clean path hBefore := hNext.clean path (h.clean path hBefore)

/-- What others serve they still serve. -/
theorem Serves.frame {other : Place} {path : List UInt8} (h : s.Serves other path)
    (hTouches : s.Touches t o touched) (hConsistent : t.Consistent) (hNe : other ≠ o)
    (hPath : some path ≠ touched) : t.Serves other path := by
  obtain ⟨object, fd, serial, hObject, hMode, hConnected, hFile, hFd, hHeld, _, hListening, hBound⟩ := h
  have hAfter := (hTouches.held other hNe).trans hHeld
  exact ⟨object, fd, serial, (hTouches.objects other hNe).trans hObject, hMode, hConnected, hFile, hFd,
    hAfter, hConsistent.sound.live other fd serial hAfter, hTouches.listening serial hListening,
    (hTouches.files path hPath).trans hBound⟩

theorem Serves.clean {path : List UInt8} (h : s.Serves o path) : s.Clean path := by
  obtain ⟨_, _, serial, _, _, _, _, _, _, _, _, hBound⟩ := h
  intro entry hEntry
  exact ⟨serial, Option.some.inj (hEntry.symm.trans hBound)⟩

theorem Consistent.held_eq_none (h : s.Consistent) (hFd : (s.objects o).bind (·.socketFd) = none) :
    s.ledger.held o = none := by
  have hSame := h.descriptors o
  rw [hFd, Option.map_eq_none_iff] at hSame
  exact hSame

theorem Consistent.held_eq_some (h : s.Consistent) {object : UnixSocket}
    (hObject : s.objects o = some object) {fd : Nat}
    (hFd : object.socketFd = some fd) : ∃ serial, s.ledger.held o = some (fd, serial) := by
  have hSame := h.descriptors o
  rw [hObject, Option.bind_some, hFd, Option.map_eq_some_iff] at hSame
  obtain ⟨⟨number, serial⟩, hHeld, rfl⟩ := hSame
  exact ⟨serial, hHeld⟩

section Operations

variable [DecidableEq Place] {object : UnixSocket}

theorem Touches.put (s : UnixSockets Place) (o : Place) (object : UnixSocket)
    (touched : Option (List UInt8)) : s.Touches (s.put o object) o touched where
  objects _ hNe := Function.update_of_ne hNe _ _
  held _ _ := rfl
  files _ _ := rfl
  listening _ := id
  clean _ := id

omit [DecidableEq Place] in
theorem Touches.unlink (s : UnixSockets Place) (o : Place) (path : List UInt8) :
    s.Touches (s.unlink path) o (some path) := by
  unfold UnixSockets.unlink
  split_ifs
  · exact .refl s o _
  · refine ⟨fun _ _ => rfl, fun _ _ => rfl, ?_, fun _ => id, ?_⟩
    · intro other hNe
      exact Function.update_of_ne (fun hSame => hNe (congrArg some hSame)) _ _
    · intro other hClean entry hEntry
      rcases eq_or_ne other path with rfl | hNe
      · simp at hEntry
      · exact hClean entry (by simpa [hNe] using hEntry)

theorem Touches.closeFd (s : UnixSockets Place) (o : Place) (fd : Option Nat)
    (touched : Option (List UInt8)) : s.Touches (s.closeFd o fd) o touched := by
  cases fd with
  | none => exact .refl s o touched
  | some fd => exact ⟨fun _ _ => rfl, fun _ hNe => Ledger.held_forget_of_ne hNe, fun _ _ => rfl,
      fun _ => id, fun _ => id⟩

theorem Touches.close (s : UnixSockets Place) (o : Place) (object : UnixSocket) :
    s.Touches (s.close o object) o object.touched := by
  refine (Touches.closeFd s o object.socketFd _).trans (.trans ?_ (.put _ o _ _))
  unfold removeFile UnixSocket.touched
  split_ifs with hFile hMode
  · exact .unlink _ o _
  · exact absurd hFile.1 hMode
  · exact .refl _ o _
  · exact .refl _ o _

theorem Touches.destroy (s : UnixSockets Place) (o : Place) (object : UnixSocket) :
    s.Touches (s.destroy o object) o object.touched := by
  refine (Touches.close s o object).trans ?_
  exact ⟨fun _ hNe => Function.update_of_ne hNe _ _, fun _ _ => rfl, fun _ _ => rfl, fun _ => id,
    fun _ => id⟩

theorem Touches.obtain (s : UnixSockets Place) (o : Place) (object : UnixSocket) (fd : Nat)
    (touched : Option (List UInt8)) : s.Touches (s.obtain o object fd) o touched where
  objects _ hNe := Function.update_of_ne hNe _ _
  held _ hNe := Ledger.held_issue_of_ne hNe
  files _ _ := rfl
  listening _ := id
  clean _ := id

omit [DecidableEq Place] in
theorem bind_cases {path : List UInt8} {serial : Nat} (h : s.bind serial path = some t) :
    s.files path = none ∧
      t = { s with files := Function.update s.files path (some (.bound serial)) } := by
  unfold UnixSockets.bind at h
  split_ifs at h with hFree
  exact ⟨hFree, (Option.some.inj h).symm⟩

omit [DecidableEq Place] in
theorem Touches.bind {path : List UInt8} {serial : Nat} (o : Place)
    (h : s.bind serial path = some t) : s.Touches t o (some path) := by
  obtain ⟨_, rfl⟩ := bind_cases h
  refine ⟨fun _ _ => rfl, fun _ _ => rfl, ?_, fun _ => id, ?_⟩
  · intro other hNe
    exact Function.update_of_ne (fun hSame => hNe (congrArg some hSame)) _ _
  · intro other hClean entry hEntry
    rcases eq_or_ne other path with rfl | hNe
    · simp only [Function.update_self, Option.some.injEq] at hEntry
      exact ⟨serial, hEntry.symm⟩
    · exact hClean entry (by simpa [hNe] using hEntry)

/-- The ways through `accept`: no connection, or one on a number that was free. -/
inductive AcceptStep (s : UnixSockets Place) (object : UnixSocket) (new : Place) :
    Option Nat → UnixSockets Place → Prop where
  | nothing {outcome : Option Nat} : AcceptStep s object new outcome s
  | connection {fd : Nat} (hFree : s.ledger.openings fd = none) : AcceptStep s object new (some fd)
      { s.put new (.ofAccepted fd object.socketPath) with ledger := s.ledger.issue new fd }

theorem accept_cases {new : Place} {outcome : Option Nat} {came : Bool}
    (h : s.accept object new outcome = some (came, t)) : AcceptStep s object new outcome t := by
  unfold UnixSockets.accept at h
  split_ifs at h
  · obtain ⟨_, rfl⟩ := Prod.mk.inj (Option.some.inj h)
    exact .nothing
  · cases outcome with
    | none =>
        obtain ⟨_, rfl⟩ := Prod.mk.inj (Option.some.inj h)
        exact .nothing
    | some fd =>
        simp only at h
        split_ifs at h with hFree
        obtain ⟨_, rfl⟩ := Prod.mk.inj (Option.some.inj h)
        exact .connection hFree

theorem Touches.accept {new : Place} {outcome : Option Nat} {came : Bool}
    (h : s.accept object new outcome = some (came, t)) : s.Touches t new none := by
  cases accept_cases h with
  | nothing => exact .refl s new none
  | connection =>
      exact ⟨fun _ hNe => Function.update_of_ne hNe _ _, fun _ hNe => Ledger.held_issue_of_ne hNe,
        fun _ _ => rfl, fun _ => id, fun _ => id⟩

/-- The ways through `initialize` of a server. -/
inductive ServerStep (s : UnixSockets Place) (o : Place) (object : UnixSocket) (serial : Nat) :
    Bool → UnixSockets Place → Prop where
  | notBound : ServerStep s o object serial false ((s.unlink object.file).close o object)
  | notListening {bound : UnixSockets Place}
      (hBind : (s.unlink object.file).bind serial object.file = some bound) :
      ServerStep s o object serial false (bound.close o object)
  | listens {bound : UnixSockets Place}
      (hBind : (s.unlink object.file).bind serial object.file = some bound) :
      ServerStep s o object serial true { bound.put o { object with connected := true } with
        listening := Function.update bound.listening serial true }

theorem initializeServer_cases {serial : Nat} {outcome : InitializeOutcome} {done : Bool}
    (h : s.initializeServer o object serial outcome = (done, t)) :
    ServerStep s o object serial done t := by
  unfold initializeServer at h
  cases hBind : (s.unlink object.file).bind serial object.file with
  | none => cases outcome <;> simp only [hBind, Prod.mk.injEq] at h <;>
      obtain ⟨rfl, rfl⟩ := h <;> exact .notBound
  | some bound =>
      cases outcome <;> simp only [hBind, Prod.mk.injEq] at h <;> obtain ⟨rfl, rfl⟩ := h
      case bindFails => exact .notBound
      case listenFails => exact .notListening hBind
      all_goals exact .listens hBind

/-- The ways through `initialize`, of a server that is initialized for the first time. -/
inductive InitializeStep (s : UnixSockets Place) (o : Place) (object : UnixSocket) :
    Bool → UnixSockets Place → Prop where
  | noSocket : InitializeStep s o object false
      { s.put o { object with socketFd := none } with ledger := s.ledger.forget o }
  | tooLong {fd : Nat} (hFree : s.ledger.openings fd = none) :
      InitializeStep s o object false
        ((s.obtain o object fd).close o { object with socketFd := some fd })
  | server {fd : Nat} {done : Bool} {t : UnixSockets Place} (hFree : s.ledger.openings fd = none)
      (hServer : ServerStep (s.obtain o object fd) o { object with socketFd := some fd }
        s.ledger.nextSerial done t) : InitializeStep s o object done t

theorem initializeSocket_cases {outcome : InitializeOutcome} {done : Bool}
    (hMode : object.mode = .server) (h : s.initializeSocket o object outcome = some (done, t)) :
    InitializeStep s o object done t := by
  unfold initializeSocket at h
  split at h
  · obtain ⟨rfl, rfl⟩ := Prod.mk.inj (Option.some.inj h)
    exact .noSocket
  · next fd _ =>
      split_ifs at h with hFree
      dsimp only at h
      split_ifs at h
      · obtain ⟨rfl, rfl⟩ := Prod.mk.inj (Option.some.inj h)
        exact .tooLong hFree
      · split at h
        · exact .server hFree (initializeServer_cases (Option.some.inj h))
        · next hClient =>
            rw [hMode] at hClient
            cases hClient

/-- An object that has no descriptor does not own a path. -/
theorem Consistent.put (h : s.Consistent) (hBefore : (s.objects o).bind (·.socketFd) = none)
    (hAfter : object.socketFd = none) : (s.put o object).Consistent := by
  have hNone := h.held_eq_none hBefore
  refine ⟨h.sound, ?_, ?_⟩
  · intro other
    rcases eq_or_ne other o with rfl | hNe
    · simp [UnixSockets.put, hNone, hAfter]
    · simpa [UnixSockets.put, hNe] using h.descriptors other
  · intro path serial hBound
    obtain ⟨other, server, fd, hServer, hMode, hFile, hHeld⟩ := h.owner path serial hBound
    have hNe : other ≠ o := by
      rintro rfl
      rw [hNone] at hHeld
      cases hHeld
    exact ⟨other, server, fd, by simpa [UnixSockets.put, hNe] using hServer, hMode, hFile, hHeld⟩

/-- Only the flag of the object changes. -/
theorem Consistent.connect (h : s.Consistent) (hObject : s.objects o = some object) :
    (s.put o { object with connected := true }).Consistent := by
  refine ⟨h.sound, ?_, ?_⟩
  · intro other
    rcases eq_or_ne other o with rfl | hNe
    · simpa [UnixSockets.put, hObject] using h.descriptors other
    · simpa [UnixSockets.put, hNe] using h.descriptors other
  · intro path serial hBound
    obtain ⟨other, server, fd, hServer, hMode, hFile, hHeld⟩ := h.owner path serial hBound
    rcases eq_or_ne other o with rfl | hNe
    · rw [hObject] at hServer
      cases hServer
      exact ⟨other, { object with connected := true }, fd, Function.update_self .., hMode, hFile, hHeld⟩
    · exact ⟨other, server, fd, by simpa [UnixSockets.put, hNe] using hServer, hMode, hFile, hHeld⟩

/-- A new descriptor for an object that owns nothing. -/
theorem Consistent.issue (h : s.Consistent) {fd : Nat} (hFree : s.ledger.openings fd = none)
    (hOwns : ∀ before, s.objects o = some before → before.mode = .server → before.socketFd = none)
    (hAfter : object.socketFd = some fd) :
    Consistent { s.put o object with ledger := s.ledger.issue o fd } := by
  refine ⟨h.sound.issue o hFree, ?_, ?_⟩
  · intro other
    rcases eq_or_ne other o with rfl | hNe
    · simp [UnixSockets.put, Ledger.issue, hAfter]
    · simpa [UnixSockets.put, Ledger.issue, hNe] using h.descriptors other
  · intro path serial hBound
    obtain ⟨other, server, number, hServer, hMode, hFile, hHeld⟩ := h.owner path serial hBound
    have hNe : other ≠ o := by
      rintro rfl
      have hNone := h.held_eq_none (o := other) (by simp [hServer, hOwns server hServer hMode])
      rw [hNone] at hHeld
      cases hHeld
    exact ⟨other, server, number, by simpa [UnixSockets.put, hNe] using hServer, hMode, hFile,
      by simpa [Ledger.issue, hNe] using hHeld⟩

omit [DecidableEq Place] in
theorem Consistent.unlink (h : s.Consistent) (path : List UInt8) : (s.unlink path).Consistent := by
  unfold UnixSockets.unlink
  split_ifs
  · exact h
  · refine ⟨h.sound, h.descriptors, ?_⟩
    intro other serial hBound
    rcases eq_or_ne other path with rfl | hNe
    · simp at hBound
    · exact h.owner other serial (by simpa [hNe] using hBound)

omit [DecidableEq Place] in
theorem Consistent.bind (h : s.Consistent) {fd serial : Nat} (hObject : s.objects o = some object)
    (hMode : object.mode = .server) (hHeld : s.ledger.held o = some (fd, serial))
    (hBind : s.bind serial object.file = some t) : t.Consistent := by
  obtain ⟨_, rfl⟩ := bind_cases hBind
  refine ⟨h.sound, h.descriptors, ?_⟩
  intro path other hBound
  rcases eq_or_ne path object.file with rfl | hNe
  · simp only [Function.update_self, Option.some.injEq, PathEntry.bound.injEq] at hBound
    exact ⟨o, object, fd, hObject, hMode, rfl, hBound ▸ hHeld⟩
  · exact h.owner path other (by simpa [hNe] using hBound)

/-- What is bound after a `close` was so before, at another path than the object's. -/
theorem bound_of_close {path : List UInt8} {serial : Nat} (hNamed : object.Named)
    (hBound : (s.close o object).files path = some (.bound serial)) :
    s.files path = some (.bound serial) ∧ some path ≠ object.touched := by
  have hClosed : (s.closeFd o object.socketFd).files = s.files := by
    cases object.socketFd <;> rfl
  change ((s.closeFd o object.socketFd).removeFile object).files path = _ at hBound
  unfold removeFile at hBound
  by_cases hMode : object.mode = .server
  · rw [if_pos ⟨hMode, hNamed hMode⟩] at hBound
    unfold UnixSockets.unlink at hBound
    rw [hClosed] at hBound
    simp only [UnixSocket.touched, if_pos hMode, ne_eq, Option.some.injEq]
    split_ifs at hBound with hDirectory
    · refine ⟨hClosed ▸ hBound, ?_⟩
      rintro rfl
      rw [hClosed, hDirectory] at hBound
      cases hBound
    · rcases eq_or_ne path object.file with rfl | hNe
      · simp at hBound
      · exact ⟨by simpa [hNe] using hBound, hNe⟩
  · rw [if_neg fun hServer => hMode hServer.1, hClosed] at hBound
    exact ⟨hBound, by simp [UnixSocket.touched, hMode]⟩

/-- `close` gives up the descriptor and, for a server, the path that it may own. -/
theorem Consistent.close (h : s.Consistent) (hObject : s.objects o = some object)
    (hNamed : object.Named) : (s.close o object).Consistent := by
  have hLedger : (s.close o object).ledger = (s.closeFd o object.socketFd).ledger := by
    unfold UnixSockets.close removeFile UnixSockets.unlink
    split_ifs <;> rfl
  have hHeld : ∀ other, (s.close o object).ledger.held other =
      if other = o then none else s.ledger.held other := by
    intro other
    rw [hLedger]
    cases hFd : object.socketFd with
    | none =>
        split_ifs with hSame
        · rw [hSame]
          exact h.held_eq_none (by simp [hObject, hFd])
        · rfl
    | some fd => simp [UnixSockets.closeFd, Ledger.forget, Ledger.close, Function.update_apply]
  have hOthers : ∀ other, other ≠ o → (s.close o object).objects other = s.objects other :=
    fun other hNe => (Touches.close s o object).objects other hNe
  refine ⟨?_, ?_, ?_⟩
  · rw [hLedger]
    cases hFd : object.socketFd with
    | none => exact h.sound
    | some fd =>
        obtain ⟨serial, hEntry⟩ := h.held_eq_some hObject hFd
        exact h.sound.close_forget (h.sound.owns hEntry)
  · intro other
    rw [hHeld]
    split_ifs with hSame
    · simp [hSame, UnixSockets.close, UnixSockets.put]
    · rw [hOthers other hSame]
      exact h.descriptors other
  · intro path serial hBound
    obtain ⟨hBefore, hPath⟩ := bound_of_close hNamed hBound
    obtain ⟨other, server, fd, hServer, hMode, hFile, hEntry⟩ := h.owner path serial hBefore
    have hNe : other ≠ o := by
      rintro rfl
      rw [hObject] at hServer
      cases hServer
      exact hPath (by simp [UnixSocket.touched, hMode, hFile])
    refine ⟨other, server, fd, (hOthers other hNe).trans hServer, hMode, hFile, ?_⟩
    rw [hHeld, if_neg hNe]
    exact hEntry

theorem object_put (s : UnixSockets Place) (o : Place) (object : UnixSocket) :
    (s.put o object).objects o = some object :=
  Function.update_self ..

theorem object_close (s : UnixSockets Place) (o : Place) (object : UnixSocket) :
    (s.close o object).objects o = some { object with socketFd := none, connected := false } :=
  Function.update_self ..

theorem Consistent.destroy (h : s.Consistent) (hObject : s.objects o = some object)
    (hNamed : object.Named) : (s.destroy o object).Consistent := by
  have hClosed := h.close hObject hNamed
  have hNone := hClosed.held_eq_none (o := o) (by simp [object_close])
  refine ⟨hClosed.sound, ?_, ?_⟩
  · intro other
    rcases eq_or_ne other o with rfl | hNe
    · change ((s.close other object).ledger.held other).map Prod.fst = _
      simp [hNone, UnixSockets.destroy]
    · simpa [UnixSockets.destroy, hNe] using hClosed.descriptors other
  · intro path serial hBound
    obtain ⟨other, server, fd, hServer, hMode, hFile, hHeld⟩ := hClosed.owner path serial hBound
    have hNe : other ≠ o := by
      rintro rfl
      rw [hNone] at hHeld
      cases hHeld
    exact ⟨other, server, fd, by simpa [UnixSockets.destroy, hNe] using hServer, hMode, hFile, hHeld⟩

theorem Consistent.accept (h : s.Consistent) {new : Place} {outcome : Option Nat} {came : Bool}
    (hNew : ∀ before, s.objects new = some before → before.mode = .client)
    (hAccept : s.accept object new outcome = some (came, t)) : t.Consistent := by
  cases accept_cases hAccept with
  | nothing => exact h
  | connection hFree =>
      refine h.issue hFree (fun before hBefore hServer => ?_) rfl
      rw [hNew before hBefore] at hServer
      cases hServer

theorem ServerStep.touches {serial : Nat} {done : Bool} (hMode : object.mode = .server)
    (h : ServerStep s o object serial done t) : s.Touches t o object.touched := by
  have hTouched : object.touched = some object.file := by simp [UnixSocket.touched, hMode]
  have hUnlink : s.Touches (s.unlink object.file) o object.touched := hTouched ▸ .unlink s o _
  have hBind : ∀ bound, (s.unlink object.file).bind serial object.file = some bound →
      s.Touches bound o object.touched := fun bound hBound => hUnlink.trans (hTouched ▸ .bind o hBound)
  cases h with
  | notBound => exact hUnlink.trans (.close _ o object)
  | notListening hBound => exact (hBind _ hBound).trans (.close _ o object)
  | @listens bound hBound =>
      refine ((hBind bound hBound).trans (.put bound o { object with connected := true } _)).trans ?_
      refine ⟨fun _ _ => rfl, fun _ _ => rfl, fun _ _ => rfl, ?_, fun _ => id⟩
      intro other hBefore
      rcases eq_or_ne other serial with rfl | hNe
      · exact Function.update_self ..
      · exact (Function.update_of_ne hNe _ _).trans hBefore

theorem InitializeStep.touches {done : Bool} (hMode : object.mode = .server)
    (h : InitializeStep s o object done t) : s.Touches t o object.touched := by
  cases h with
  | noSocket =>
      exact (Touches.put s o { object with socketFd := none } _).trans
        ⟨fun _ _ => rfl, fun _ hNe => Ledger.held_forget_of_ne hNe, fun _ _ => rfl, fun _ => id, fun _ => id⟩
  | @tooLong fd hFree => exact (Touches.obtain s o object fd _).trans (.close _ o _)
  | @server fd _ _ hFree hServer =>
      have hTouches : (s.obtain o object fd).Touches t o
          ({ object with socketFd := some fd } : UnixSocket).touched := hServer.touches hMode
      exact (Touches.obtain s o object fd _).trans hTouches

/-- What a first `initialize` of a server leaves: a socket that serves its path, or a closed
object. -/
structure Initialized (t : UnixSockets Place) (o : Place) (object : UnixSocket) (done : Bool) :
    Prop where
  consistent : t.Consistent
  stays : ∃ after, t.objects o = some after ∧ after.mode = .server ∧
    after.socketPath = object.socketPath
  serves : done = true → t.Serves o object.file

theorem Consistent.serverStep (h : s.Consistent) {fd serial : Nat} {done : Bool}
    (hObject : s.objects o = some object) (hMode : object.mode = .server) (hNamed : object.Named)
    (hFd : object.socketFd = some fd) (hHeld : s.ledger.held o = some (fd, serial))
    (hStep : ServerStep s o object serial done t) : Initialized t o object done := by
  have hUnlinked := h.unlink object.file
  have hSame : (s.unlink object.file).objects = s.objects ∧ (s.unlink object.file).ledger = s.ledger := by
    unfold UnixSockets.unlink
    split_ifs <;> exact ⟨rfl, rfl⟩
  have hBind : ∀ bound, (s.unlink object.file).bind serial object.file = some bound →
      bound.Consistent ∧ bound.objects o = some object ∧ bound.ledger = s.ledger ∧
        bound.files object.file = some (.bound serial) := by
    intro bound hBound
    have hConsistent := hUnlinked.bind (by rw [hSame.1, hObject]) hMode (by rw [hSame.2, hHeld]) hBound
    obtain ⟨_, rfl⟩ := bind_cases hBound
    exact ⟨hConsistent, hSame.1 ▸ hObject, hSame.2, Function.update_self ..⟩
  cases hStep with
  | notBound =>
      exact ⟨hUnlinked.close (by rw [hSame.1, hObject]) hNamed, ⟨_, object_close _ o object, hMode, rfl⟩,
        nofun⟩
  | notListening hBound =>
      obtain ⟨hConsistent, hAfter, _⟩ := hBind _ hBound
      exact ⟨hConsistent.close hAfter hNamed, ⟨_, object_close _ o object, hMode, rfl⟩, nofun⟩
  | @listens bound hBound =>
      obtain ⟨hConsistent, hAfter, hLedger, hFile⟩ := hBind bound hBound
      have hConnected := hConsistent.connect hAfter
      refine ⟨⟨hConnected.sound, hConnected.descriptors, hConnected.owner⟩,
        ⟨{ object with connected := true }, object_put .., hMode, rfl⟩, fun _ => ?_⟩
      have hEntry : bound.ledger.held o = some (fd, serial) := hLedger ▸ hHeld
      exact ⟨{ object with connected := true }, fd, serial, object_put .., hMode, rfl, rfl, hFd, hEntry,
        hConsistent.sound.live o fd serial hEntry, Function.update_self .., hFile⟩

theorem Consistent.initialize (h : s.Consistent) {done : Bool} (hObject : s.objects o = some object)
    (hMode : object.mode = .server) (hNamed : object.Named) (hFd : object.socketFd = none)
    (hStep : InitializeStep s o object done t) : Initialized t o object done := by
  have hNone := h.held_eq_none (o := o) (by simp [hObject, hFd])
  have hObtain : ∀ fd, s.ledger.openings fd = none → (s.obtain o object fd).Consistent := by
    intro fd hFree
    refine h.issue hFree (fun before hBefore _ => ?_) rfl
    rw [hObject, Option.some.injEq] at hBefore
    rw [← hBefore, hFd]
  have hAfter : ∀ fd, (s.obtain o object fd).objects o = some { object with socketFd := some fd } :=
    fun fd => Function.update_self ..
  cases hStep with
  | noSocket =>
      have hPut : (s.put o { object with socketFd := none }).Consistent :=
        h.put (by simp [hObject, hFd]) rfl
      have hForget : s.ledger.forget o = s.ledger := by
        unfold Ledger.forget
        rw [← hNone, Function.update_eq_self]
      rw [hForget]
      exact ⟨hPut, ⟨_, object_put .., hMode, rfl⟩, nofun⟩
  | @tooLong fd hFree =>
      exact ⟨(hObtain fd hFree).close (hAfter fd) hNamed, ⟨_, object_close .., hMode, rfl⟩, nofun⟩
  | @server fd _ _ hFree hServer =>
      have hHeld : (s.obtain o object fd).ledger.held o = some (fd, s.ledger.nextSerial) :=
        Function.update_self ..
      have hDone := (hObtain fd hFree).serverStep (hAfter fd) hMode hNamed rfl hHeld hServer
      exact ⟨hDone.consistent, hDone.stays, hDone.serves⟩

theorem object_accept {new : Place} {outcome : Option Nat} {came : Bool}
    (hNew : ∀ before, s.objects new = some before → before.mode = .client)
    (hAccept : s.accept object new outcome = some (came, t)) :
    ∀ after, t.objects new = some after → after.mode = .client := by
  cases accept_cases hAccept with
  | nothing => exact hNew
  | @connection fd =>
      intro after hAfter
      have hSame : some after = some (UnixSocket.ofAccepted fd object.socketPath) :=
        hAfter.symm.trans (Function.update_self ..)
      cases hSame
      rfl

theorem object_reset (s : UnixSockets Place) (o : Place) : (s.reset o).objects o = none := by
  unfold reset
  split
  · assumption
  · exact Function.update_self ..

theorem Touches.reset (s : UnixSockets Place) (o : Place) {touched : Option (List UInt8)}
    (hTouched : ∀ object, s.objects o = some object → object.touched = touched) :
    s.Touches (s.reset o) o touched := by
  unfold UnixSockets.reset
  split
  · exact .refl s o touched
  · next object hObject => exact hTouched object hObject ▸ .destroy s o object

theorem Clean.reset {path : List UInt8} (h : s.Clean path) (o : Place) : (s.reset o).Clean path := by
  unfold UnixSockets.reset
  split
  · exact h
  · next object hObject => exact (Touches.destroy s o object).clean path h

theorem Consistent.reset (h : s.Consistent) (o : Place)
    (hNamed : ∀ object, s.objects o = some object → object.Named) : (s.reset o).Consistent := by
  unfold UnixSockets.reset
  split
  · exact h
  · next object hObject => exact h.destroy hObject (hNamed object hObject)

end Operations

/-- What is at a path in `t` was there in `s`, or a later descriptor was bound to it.
Directories stay. -/
structure Follows (s t : UnixSockets Place) : Prop where
  serial : s.ledger.nextSerial ≤ t.ledger.nextSerial
  files : ∀ path entry, t.files path = some entry → s.files path = some entry ∨
    ∃ serial, entry = .bound serial ∧ s.ledger.nextSerial ≤ serial
  directories : ∀ path, s.files path = some .directory → t.files path = some .directory

theorem Follows.same (hSerial : t.ledger.nextSerial = s.ledger.nextSerial) (hFiles : t.files = s.files) :
    s.Follows t := by
  refine ⟨hSerial.ge, ?_, ?_⟩ <;> rw [hFiles]
  · exact fun _ _ => .inl
  · exact fun _ => id

theorem Follows.refl (s : UnixSockets Place) : s.Follows s :=
  .same rfl rfl

theorem Follows.trans (h : s.Follows t) (hNext : t.Follows u) : s.Follows u := by
  refine ⟨h.serial.trans hNext.serial, ?_, ?_⟩
  · intro path entry hEntry
    rcases hNext.files path entry hEntry with hBefore | ⟨serial, rfl, hSerial⟩
    · exact h.files path entry hBefore
    · exact .inr ⟨serial, rfl, h.serial.trans hSerial⟩
  · intro path hBefore
    exact hNext.directories path (h.directories path hBefore)

theorem Follows.unlink (s : UnixSockets Place) (path : List UInt8) : s.Follows (s.unlink path) := by
  unfold UnixSockets.unlink
  split_ifs with hDirectory
  · exact .refl s
  · refine ⟨Nat.le_refl _, fun other entry hEntry => .inl ?_, fun other hBefore => ?_⟩
    · rcases eq_or_ne other path with rfl | hNe
      · simp at hEntry
      · simpa [hNe] using hEntry
    · have hNe : other ≠ path := by
        rintro rfl
        exact hDirectory hBefore
      exact (Function.update_of_ne hNe _ _).trans hBefore

theorem Follows.bind (h : s.Follows t) {serial : Nat} {path : List UInt8}
    (hSerial : s.ledger.nextSerial ≤ serial) (hBind : t.bind serial path = some u) : s.Follows u := by
  obtain ⟨hFree, rfl⟩ := bind_cases hBind
  refine ⟨h.serial, fun other entry hEntry => ?_, fun other hBefore => ?_⟩
  · rcases eq_or_ne other path with rfl | hNe
    · simp only [Function.update_self, Option.some.injEq] at hEntry
      exact .inr ⟨serial, hEntry.symm, hSerial⟩
    · exact h.files other entry (by simpa [hNe] using hEntry)
  · have hAfter := h.directories other hBefore
    have hNe : other ≠ path := by
      rintro rfl
      rw [hFree] at hAfter
      cases hAfter
    exact (Function.update_of_ne hNe _ _).trans hAfter

section Effects

variable [DecidableEq Place] {object : UnixSocket}

theorem files_closeFd (s : UnixSockets Place) (o : Place) (fd : Option Nat) :
    (s.closeFd o fd).files = s.files := by
  cases fd <;> rfl

theorem nextSerial_closeFd (s : UnixSockets Place) (o : Place) (fd : Option Nat) :
    (s.closeFd o fd).ledger.nextSerial = s.ledger.nextSerial := by
  cases fd <;> rfl

theorem Follows.close (s : UnixSockets Place) (o : Place) (object : UnixSocket) :
    s.Follows (s.close o object) := by
  have hFd : s.Follows (s.closeFd o object.socketFd) :=
    .same (nextSerial_closeFd ..) (files_closeFd ..)
  have hFile : (s.closeFd o object.socketFd).Follows ((s.closeFd o object.socketFd).removeFile object) := by
    unfold removeFile
    split_ifs
    · exact .unlink _ _
    · exact .refl _
  exact (hFd.trans hFile).trans (.same rfl rfl)

theorem Follows.reset (s : UnixSockets Place) (o : Place) : s.Follows (s.reset o) := by
  unfold UnixSockets.reset
  split
  · exact .refl s
  · exact (Follows.close s o _).trans (.same rfl rfl)

/-- After `close` there is nothing at the path of a server but a directory. -/
theorem files_close (hMode : object.mode = .server) (hPath : object.socketPath ≠ [])
    {entry : PathEntry} (hEntry : (s.close o object).files object.file = some entry) :
    entry = .directory := by
  change ((s.closeFd o object.socketFd).removeFile object).files object.file = _ at hEntry
  rw [removeFile, if_pos ⟨hMode, hPath⟩, UnixSockets.unlink] at hEntry
  split_ifs at hEntry with hDirectory
  · exact Option.some.inj (hEntry.symm.trans hDirectory)
  · simp at hEntry

theorem Follows.obtain (s : UnixSockets Place) (o : Place) (object : UnixSocket) (fd : Nat) :
    s.Follows (s.obtain o object fd) :=
  ⟨Nat.le_succ _, fun _ _ => .inl, fun _ => id⟩

theorem ledger_close (hFd : object.socketFd = none) : (s.close o object).ledger = s.ledger := by
  unfold UnixSockets.close removeFile UnixSockets.unlink
  rw [hFd]
  split_ifs <;> rfl

/-- A server without descriptor changes the files by `close` exactly if it finds something
that it can remove. -/
theorem files_close_eq_iff (hFd : object.socketFd = none) (hMode : object.mode = .server) :
    (s.close o object).files = s.files ↔
      (object.socketPath ≠ [] → ∀ entry, s.files object.file = some entry → entry = .directory) := by
  constructor
  · intro hSame hPath entry hEntry
    exact files_close hMode hPath (hSame ▸ hEntry)
  · intro hNothing
    change ((s.closeFd o object.socketFd).removeFile object).files = s.files
    rw [hFd]
    by_cases hPath : object.socketPath = []
    · rw [removeFile, if_neg fun hServer => hServer.2 hPath]
      rfl
    · rw [removeFile, if_pos ⟨hMode, hPath⟩, UnixSockets.unlink]
      split_ifs with hDirectory
      · rfl
      · have hNone : s.files object.file = none := by
          by_contra hSome
          obtain ⟨entry, hEntry⟩ := Option.ne_none_iff_exists'.mp hSome
          exact hDirectory (hEntry.trans (by rw [hNothing hPath entry hEntry]))
        change Function.update s.files object.file none = s.files
        rw [← hNone, Function.update_eq_self]

/-- The ways through `initialize` once `socket` has given a descriptor: all failures end with
`close`. -/
inductive InitializeEnd (s : UnixSockets Place) (o : Place) (object : UnixSocket) (fd : Nat) :
    Bool → UnixSockets Place → Prop where
  | closes {u : UnixSockets Place} (hFollows : s.Follows u)
      (hOthers : ∀ other, other ≠ o → u.objects other = s.objects other) :
      InitializeEnd s o object fd false (u.close o { object with socketFd := some fd })
  | connects {t : UnixSockets Place} (hFollows : s.Follows t)
      (hOthers : ∀ other, other ≠ o → t.objects other = s.objects other)
      (hObject : t.objects o = some { object with socketFd := some fd, connected := true })
      (hBound : object.mode = .server → s.files object.file ≠ some .directory) :
      InitializeEnd s o object fd true t

theorem ServerStep.initializeEnd {fd : Nat} {done : Bool}
    (h : ServerStep (s.obtain o object fd) o { object with socketFd := some fd } s.ledger.nextSerial
      done t) : InitializeEnd s o object fd done t := by
  have hObtain := Follows.obtain s o object fd
  have hOthers : ∀ other, other ≠ o → (s.obtain o object fd).objects other = s.objects other :=
    (Touches.obtain s o object fd none).objects
  have hUnlink := hObtain.trans (.unlink (s.obtain o object fd) object.file)
  have hUnlinked : ∀ other, other ≠ o →
      ((s.obtain o object fd).unlink object.file).objects other = s.objects other := by
    intro other hNe
    rw [← hOthers other hNe]
    exact (Touches.unlink _ o object.file).objects other hNe
  have hBound : ∀ bound, ((s.obtain o object fd).unlink object.file).bind s.ledger.nextSerial
      object.file = some bound → s.Follows bound ∧
        (∀ other, other ≠ o → bound.objects other = s.objects other) ∧
          s.files object.file ≠ some .directory := by
    intro bound hBind
    refine ⟨hUnlink.bind (Nat.le_refl _) hBind, fun other hNe => ?_, fun hDirectory => ?_⟩
    · rw [← hUnlinked other hNe]
      exact (Touches.bind o hBind).objects other hNe
    · have hStays := hUnlink.directories _ hDirectory
      rw [(bind_cases hBind).1] at hStays
      cases hStays
  cases h with
  | notBound => exact .closes hUnlink hUnlinked
  | notListening hBind =>
      obtain ⟨hFollows, hSame, _⟩ := hBound _ hBind
      exact .closes hFollows hSame
  | @listens bound hBind =>
      obtain ⟨hFollows, hSame, hFree⟩ := hBound bound hBind
      refine .connects (hFollows.trans (.same rfl rfl)) (fun other hNe => ?_) (Function.update_self ..)
        fun _ => hFree
      exact (Function.update_of_ne hNe _ _).trans (hSame other hNe)

theorem initializeSocket_end {outcome : InitializeOutcome} {done : Bool} {fd : Nat}
    (hFd : outcome.fd = some fd) (h : s.initializeSocket o object outcome = some (done, t)) :
    InitializeEnd s o object fd done t := by
  have hObtain := Follows.obtain s o object fd
  have hOthers : ∀ other, other ≠ o → (s.obtain o object fd).objects other = s.objects other :=
    (Touches.obtain s o object fd none).objects
  simp only [initializeSocket, hFd] at h
  split_ifs at h
  · obtain ⟨rfl, rfl⟩ := Prod.mk.inj (Option.some.inj h)
    exact .closes hObtain hOthers
  · split at h
    · exact (initializeServer_cases (Option.some.inj h)).initializeEnd
    · next hMode =>
        have hClient := Option.some.inj h
        unfold initializeClient at hClient
        split at hClient
        · obtain ⟨rfl, rfl⟩ := Prod.mk.inj hClient
          exact .closes hObtain hOthers
        · obtain ⟨rfl, rfl⟩ := Prod.mk.inj hClient
          refine .connects (hObtain.trans (.same rfl rfl)) (fun other hNe => ?_)
            (Function.update_self ..) fun hServer => ?_
          · exact (Function.update_of_ne hNe _ _).trans (hOthers other hNe)
          · rw [hMode] at hServer
            cases hServer

theorem initializeServer_done (s : UnixSockets Place) (o : Place) (object : UnixSocket) (serial fd : Nat)
    (hFile : s.files object.file ≠ some .directory) :
    ∃ t, s.initializeServer o object serial (.done fd) = (true, t) ∧ t.ledger = s.ledger ∧
      t.objects = Function.update s.objects o (some { object with connected := true }) := by
  have hUnlink : s.unlink object.file = { s with files := Function.update s.files object.file none } :=
    if_neg hFile
  obtain ⟨bound, hBind, hLedger, hObjects⟩ : ∃ bound,
      (s.unlink object.file).bind serial object.file = some bound ∧
        bound.ledger = s.ledger ∧ bound.objects = s.objects := by
    rw [hUnlink]
    exact ⟨_, if_pos (Function.update_self ..), rfl, rfl⟩
  refine ⟨{ bound.put o { object with connected := true } with
    listening := Function.update bound.listening serial true }, ?_, hLedger, ?_⟩
  · simp only [initializeServer, hBind]
  · rw [← hObjects]
    rfl

/-- `initialize` of a server succeeds where its path is short enough and no directory. -/
theorem initializeSocket_done (s : UnixSockets Place) (o : Place) {object : UnixSocket} {fd : Nat}
    (hMode : object.mode = .server) (hShort : object.socketPath.length < 108)
    (hFile : s.files object.file ≠ some .directory) (hFree : s.ledger.openings fd = none) :
    ∃ t, s.initializeSocket o object (.done fd) = some (true, t) ∧ t.ledger = s.ledger.issue o fd ∧
      t.objects = Function.update s.objects o (some { object with socketFd := some fd, connected := true }) := by
  have hAddress : ¬(UnixSocket.setupAddress object.socketPath).isNone = true := by
    rw [UnixSocket.setupAddress, if_neg (Nat.not_le.mpr hShort)]
    exact Bool.false_ne_true
  obtain ⟨t, hServer, hLedger, hObjects⟩ := initializeServer_done (s.obtain o object fd) o
    { object with socketFd := some fd } s.ledger.nextSerial fd hFile
  refine ⟨t, ?_, hLedger, hObjects.trans (Function.update_idem ..)⟩
  simp only [hMode] at hServer
  simp only [initializeSocket, InitializeOutcome.fd, if_pos hFree, if_neg hAddress, hMode]
  exact congrArg some hServer
theorem Follows.initialization {outcome : InitializeOutcome} {done : Bool}
    (h : s.initializeSocket o object outcome = some (done, t)) : s.Follows t := by
  cases hFd : outcome.fd with
  | none =>
      simp only [initializeSocket, hFd, Option.some.injEq, Prod.mk.injEq] at h
      obtain ⟨rfl, rfl⟩ := h
      exact .same rfl rfl
  | some fd =>
      cases initializeSocket_end hFd h with
      | closes hFollows => exact hFollows.trans (.close ..)
      | connects hFollows => exact hFollows

theorem Follows.accept {new : Place} {outcome : Option Nat} {came : Bool}
    (h : s.accept object new outcome = some (came, t)) : s.Follows t := by
  cases accept_cases h with
  | nothing => exact .refl s
  | connection => exact ⟨Nat.le_succ _, fun _ _ => .inl, fun _ => id⟩

theorem accept_connected (s : UnixSockets Place) (new : Place) {fd : Nat} (hMode : object.mode = .server)
    (hConnected : object.connected = true) (hFree : s.ledger.openings fd = none) :
    s.accept object new (some fd) = some (true,
      { s.put new (.ofAccepted fd object.socketPath) with ledger := s.ledger.issue new fd }) := by
  rw [UnixSockets.accept, if_neg (by simp [hMode, hConnected])]
  exact if_pos hFree

theorem reset_client {fd : Nat} (hObject : s.objects o = some object) (hMode : object.mode = .client)
    (hFd : object.socketFd = some fd) : s.reset o =
      { s with ledger := (s.ledger.close fd).forget o, objects := Function.update s.objects o none } := by
  have hFile : (s.closeFd o object.socketFd).removeFile object = s.closeFd o (some fd) := by
    rw [removeFile, if_neg (by simp [hMode]), hFd]
  have hUpdate : Function.update (s.close o object).objects o none = Function.update s.objects o none := by
    rw [UnixSockets.close, hFile]
    exact Function.update_idem ..
  simp only [UnixSockets.reset, hObject, destroy, hUpdate]
  simp only [UnixSockets.close, hFile]
  rfl

end Effects

/-- Descriptors that are not of this kind come and go. -/
theorem Consistent.of_issued (h : s.Consistent) {after : Ledger Place} (hHeld : after.held = s.ledger.held)
    (hSerial : after.nextSerial = s.ledger.nextSerial) (hIssued : ∀ fd serial,
      after.openings fd = some (.issued serial) ↔ s.ledger.openings fd = some (.issued serial)) :
    Consistent { s with ledger := after } :=
  ⟨h.sound.of_issued hHeld hSerial hIssued, fun o => by rw [hHeld]; exact h.descriptors o,
    fun path serial hBound => by rw [hHeld]; exact h.owner path serial hBound⟩

theorem Touches.of_held (o : Place) {after : Ledger Place} (hHeld : after.held = s.ledger.held) :
    s.Touches { s with ledger := after } o none :=
  ⟨fun _ _ => rfl, fun other _ => congrFun hHeld other, fun _ _ => rfl, fun _ => id, fun _ => id⟩

end UnixSockets
end HyCAN
