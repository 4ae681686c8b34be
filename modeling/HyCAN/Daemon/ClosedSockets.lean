import HyCAN.Daemon.SocketUse

/-! What a closed server does when it is closed once more, by `close`, as the target of a move
assignment or by its destructor. Its descriptor is gone for good, but `close` removes
the file at its path each time, whoever bound it. -/
namespace HyCAN

open Ownership Transition

namespace UnixSockets

variable {Place : Type} {s t u : UnixSockets Place}

/-- Of an object that was closed when `since` was the next serial: it has no descriptor, and
at its path there can be a directory and what was bound since. -/
structure Spent (s : UnixSockets Place) (object : UnixSocket) (since : Nat) : Prop where
  noFd : object.socketFd = none
  past : since ≤ s.ledger.nextSerial
  path : object.mode = .server → object.socketPath ≠ [] → ∀ entry, s.files object.file = some entry →
    entry = .directory ∨ ∃ serial, entry = .bound serial ∧ since ≤ serial

variable {object : UnixSocket} {since : Nat}

theorem Spent.follows (h : s.Spent object since) (hFollows : s.Follows t) : t.Spent object since := by
  refine ⟨h.noFd, h.past.trans hFollows.serial, ?_⟩
  intro hMode hPath entry hEntry
  rcases hFollows.files object.file entry hEntry with hBefore | ⟨serial, rfl, hSerial⟩
  · exact h.path hMode hPath entry hBefore
  · exact .inr ⟨serial, rfl, h.past.trans hSerial⟩

theorem spent_movedFrom (hSince : since ≤ s.ledger.nextSerial) : s.Spent object.movedFrom since :=
  ⟨rfl, hSince, fun _ hPath => absurd rfl hPath⟩

variable [DecidableEq Place] {o : Place}

/-- The object that `close` leaves is spent, whenever it was closed first. -/
theorem spent_close (hSince : since ≤ (s.close o object).ledger.nextSerial) :
    (s.close o object).Spent { object with socketFd := none, connected := false } since := by
  refine ⟨rfl, hSince, ?_⟩
  intro hMode hPath entry hEntry
  exact .inl (files_close hMode hPath hEntry)

end UnixSockets

namespace SocketUse

variable {Place : Type} [DecidableEq Place] {s t : SocketUse Place} {o : Place}

/-- What is marked as closed is spent. -/
def Kept (s : SocketUse Place) : Prop :=
  ∀ o object since, s.sockets.objects o = some object → s.closed o = some since →
    s.sockets.Spent object since

theorem Kept.after (h : s.Kept) {sockets : UnixSockets Place} {initialized : Bool} {closed : Option Nat}
    (hFollows : s.sockets.Follows sockets)
    (hOthers : ∀ other object, other ≠ o → sockets.objects other = some object →
      ∃ before, s.sockets.objects other = some before ∧ (object = before ∨ object = before.movedFrom))
    (hSelf : ∀ object since, sockets.objects o = some object → closed = some since →
      sockets.Spent object since) : (s.after sockets o initialized closed).Kept := by
  intro other object since hObject hClosed
  rcases eq_or_ne other o with rfl | hNe
  · exact hSelf object since hObject (by simpa [SocketUse.after] using hClosed)
  · obtain ⟨before, hBefore, hSame⟩ := hOthers other object hNe hObject
    have hSpent := h other before since hBefore (by simpa [SocketUse.after, hNe] using hClosed)
    rcases hSame with rfl | rfl
    · exact hSpent.follows hFollows
    · exact UnixSockets.spent_movedFrom (hSpent.past.trans hFollows.serial)

/-- The calls that leave the other objects as they are. -/
theorem Kept.alone (h : s.Kept) {sockets : UnixSockets Place} {initialized : Bool} {closed : Option Nat}
    (hFollows : s.sockets.Follows sockets)
    (hOthers : ∀ other, other ≠ o → sockets.objects other = s.sockets.objects other)
    (hSelf : ∀ object since, sockets.objects o = some object → closed = some since →
      sockets.Spent object since) : (s.after sockets o initialized closed).Kept :=
  h.after hFollows (fun other object hNe hObject => ⟨object, (hOthers other hNe).symm.trans hObject, .inl rfl⟩)
    hSelf

theorem Kept.initializeSocket (h : s.Kept) {object : UnixSocket} {outcome : InitializeOutcome} {done : Bool}
    {sockets : UnixSockets Place} (hObject : s.sockets.objects o = some object)
    (hInitialize : s.sockets.initializeSocket o object outcome = some (done, sockets)) :
    (s.after sockets o true (s.closedBy o outcome done sockets)).Kept := by
  cases hFd : outcome.fd with
  | none =>
      simp only [UnixSockets.initializeSocket, hFd, Option.some.injEq, Prod.mk.injEq] at hInitialize
      obtain ⟨rfl, rfl⟩ := hInitialize
      refine h.alone (.same rfl rfl) (fun other hNe => Function.update_of_ne hNe _ _) ?_
      intro left since hLeft hClosed
      cases (Function.update_self ..).symm.trans hLeft
      rw [closedBy, if_neg Bool.false_ne_true, if_pos hFd] at hClosed
      have hSpent := h o object since hObject hClosed
      exact ⟨rfl, hSpent.past, hSpent.path⟩
  | some fd =>
      cases UnixSockets.initializeSocket_end hFd hInitialize with
      | @closes u hFollows hOthers =>
          have hClose := UnixSockets.Touches.close u o { object with socketFd := some fd }
          refine h.alone (hFollows.trans (.close ..)) ?_ ?_
          · intro other hNe
            rw [hClose.objects other hNe, hOthers other hNe]
          · intro left since hLeft hClosed
            cases (UnixSockets.object_close u o _).symm.trans hLeft
            rw [closedBy, if_neg Bool.false_ne_true, if_neg (hFd ▸ Option.some_ne_none fd)] at hClosed
            exact UnixSockets.spent_close (Option.some.inj hClosed).ge
      | connects hFollows hOthers =>
          refine h.alone hFollows hOthers fun left since hLeft hClosed => ?_
          rw [closedBy, if_pos rfl] at hClosed
          cases hClosed

theorem Kept.move (h : s.Kept) {sockets : UnixSockets Place} {source target : Place} {object : UnixSocket}
    {initialized : Bool} (hFollows : s.sockets.Follows sockets) (hSource : s.sockets.objects source = some object)
    (hNe : source ≠ target) (hOthers : ∀ other, other ≠ target →
      sockets.objects other = s.sockets.objects other) :
    (s.after (sockets.move source target object) target initialized (s.closed source)).Kept := by
  have hMove : s.sockets.Follows (sockets.move source target object) := hFollows.trans (.same rfl rfl)
  refine h.after hMove ?_ ?_
  · intro other left hOther hLeft
    rcases eq_or_ne other source with rfl | hThird
    · cases (Function.update_self ..).symm.trans hLeft
      exact ⟨object, hSource, .inr rfl⟩
    · refine ⟨left, ?_, .inl rfl⟩
      rw [← hOthers other hOther, ← hLeft, UnixSockets.move]
      simp [hThird, hOther]
  · intro left since hLeft hClosed
    have hSame : left = object := by
      simpa [UnixSockets.move, hNe.symm, eq_comm] using hLeft
    rw [hSame]
    exact (h source object since hSource hClosed).follows hMove

theorem Kept.step (h : s.Kept) {call : SocketCall Place} (hStep : (machine Place).step s call = some t) :
    t.Kept := by
  change s.step call = some t at hStep
  cases call with
  | construct o name mode =>
      simp only [SocketUse.step] at hStep
      split at hStep
      · cases hStep
      · refine Option.some.inj hStep ▸ h.alone (.same rfl rfl) ?_ fun _ _ _ => nofun
        exact fun other hNe => Function.update_of_ne hNe _ _
  | initializeSocket o outcome =>
      simp only [SocketUse.step] at hStep
      split at hStep
      · cases hStep
      · next object hObject =>
          split_ifs at hStep
          obtain ⟨⟨done, sockets⟩, hInitialize, rfl⟩ := Option.map_eq_some_iff.mp hStep
          exact h.initializeSocket hObject hInitialize
  | accept o new outcome =>
      simp only [SocketUse.step] at hStep
      split at hStep
      · obtain ⟨⟨came, sockets⟩, hAccept, rfl⟩ := Option.map_eq_some_iff.mp hStep
        exact h.alone (.accept hAccept) (UnixSockets.Touches.accept hAccept).objects fun _ _ _ => nofun
      · cases hStep
  | close o =>
      simp only [SocketUse.step] at hStep
      split at hStep
      · cases hStep
      · next object hObject =>
          have hClose := UnixSockets.Follows.close s.sockets o object
          refine Option.some.inj hStep ▸ h.alone hClose (UnixSockets.Touches.close s.sockets o object).objects ?_
          intro left since hLeft hClosed
          cases (UnixSockets.object_close s.sockets o object).symm.trans hLeft
          apply UnixSockets.spent_close
          rw [← Option.some.inj hClosed]
          cases hBefore : s.closed o with
          | none => exact hClose.serial
          | some since => exact (h o object since hObject hBefore).past.trans hClose.serial
  | moveConstruct source target =>
      simp only [SocketUse.step] at hStep
      split at hStep
      · next object hSource hTarget =>
          have hNe : source ≠ target := by
            rintro rfl
            rw [hSource] at hTarget
            cases hTarget
          exact Option.some.inj hStep ▸ h.move (.refl _) hSource hNe fun _ _ => rfl
      · cases hStep
  | moveAssign source target =>
      simp only [SocketUse.step] at hStep
      split at hStep
      · next object before hSource hTarget =>
          split_ifs at hStep with hSame
          · exact Option.some.inj hStep ▸ h
          · exact Option.some.inj hStep ▸ h.move (.close ..) hSource hSame
              (UnixSockets.Touches.close s.sockets target before).objects
      · cases hStep
  | destroy o =>
      simp only [SocketUse.step] at hStep
      split at hStep
      · cases hStep
      · next object hObject =>
          refine Option.some.inj hStep ▸ h.alone ?_
            (UnixSockets.Touches.destroy s.sockets o object).objects fun _ _ _ => nofun
          exact (UnixSockets.Follows.close s.sockets o object).trans (.same rfl rfl)
  | openForeign fd | closeForeign fd =>
      simp only [SocketUse.step] at hStep
      split_ifs at hStep
      refine Option.some.inj hStep ▸ fun o object since hObject hClosed => ?_
      exact (h o object since hObject hClosed).follows (.same rfl rfl)

theorem kept_of_reachable {ledger : Ledger Place} {files : List UInt8 → Option PathEntry}
    (h : (machine Place).Reachable (init ledger files) s) : s.Kept :=
  h.invariant nofun fun _ _ _ hKept hStep => hKept.step hStep

/-- The call runs `close` on the object. -/
def Closes (o : Place) : SocketCall Place → Prop
  | .close other | .destroy other => other = o
  | .moveAssign source target => target = o ∧ source ≠ o
  | _ => False

/-- The object is a server, and it has been closed. -/
def ClosedServer (s : SocketUse Place) (o : Place) : Prop :=
  (s.closed o).isSome ∧ ∃ object, s.sockets.objects o = some object ∧ object.mode = .server

/-- A socket from after the closing is bound at the path that the object still has. -/
def Rebound (s : SocketUse Place) (o : Place) : Prop :=
  ∃ object since serial, s.sockets.objects o = some object ∧ object.socketPath ≠ [] ∧
    s.closed o = some since ∧ since ≤ serial ∧ s.sockets.files object.file = some (.bound serial)

/-- Neither the descriptors of the process nor the files change. -/
def SameEffects (s t : SocketUse Place) : Prop :=
  t.sockets.ledger.openings = s.sockets.ledger.openings ∧ t.sockets.files = s.sockets.files

/-- What these calls do to descriptors and files is what `close` does. -/
theorem effects_of_closes {call : SocketCall Place} (hCloses : Closes o call)
    (hStep : (machine Place).step s call = some t) : ∃ object, s.sockets.objects o = some object ∧
      t.sockets.ledger.openings = (s.sockets.close o object).ledger.openings ∧
      t.sockets.files = (s.sockets.close o object).files := by
  change s.step call = some t at hStep
  cases call with
  | close other | destroy other =>
      obtain rfl : other = o := hCloses
      simp only [SocketUse.step] at hStep
      split at hStep
      · cases hStep
      · next object hObject =>
          cases hStep
          exact ⟨object, hObject, rfl, rfl⟩
  | moveAssign source target =>
      obtain ⟨rfl, hNe⟩ := hCloses
      simp only [SocketUse.step] at hStep
      split at hStep
      · next object before hSource hTarget =>
          rw [if_neg hNe] at hStep
          cases hStep
          exact ⟨before, hTarget, rfl, rfl⟩
      · cases hStep
  | construct | initializeSocket | accept | moveConstruct | openForeign | closeForeign => cases hCloses

theorem Kept.sameEffects_iff (h : s.Kept) {call : SocketCall Place} (hCloses : Closes o call)
    (hClosed : s.ClosedServer o) (hStep : (machine Place).step s call = some t) :
    s.SameEffects t ↔ ¬s.Rebound o := by
  obtain ⟨object, hObject, hOpenings, hFiles⟩ := effects_of_closes hCloses hStep
  obtain ⟨hSome, server, hServer, hMode⟩ := hClosed
  obtain ⟨since, hSince⟩ := Option.isSome_iff_exists.mp hSome
  cases hServer.symm.trans hObject
  have hSpent := h o object since hObject hSince
  rw [SameEffects, hOpenings, hFiles, UnixSockets.ledger_close hSpent.noFd, and_iff_right rfl,
    UnixSockets.files_close_eq_iff hSpent.noFd hMode]
  constructor
  · rintro hNothing ⟨same, _, serial, hSame, hPath, _, _, hBound⟩
    cases hSame.symm.trans hObject
    cases hNothing hPath _ hBound
  · intro hNever hPath entry hEntry
    rcases hSpent.path hMode hPath entry hEntry with rfl | ⟨serial, rfl, hSerial⟩
    · rfl
    · exact absurd ⟨object, since, serial, hObject, hPath, hSince, hSerial, hEntry⟩ hNever

variable (ledger : Ledger Place) (files : List UInt8 → Option PathEntry)

/-- In the run, closing a closed server once more has no effect. -/
def ClosesOnce (actions : List (SocketCall Place)) : Prop :=
  ∀ s call t, (machine Place).Takes (init ledger files) actions s call t →
    ∀ o, Closes o call → s.ClosedServer o → s.SameEffects t

/-- Whatever the calls are: closing closed servers again has no effect in a run exactly if
their paths are not in use again at those moments. -/
theorem closes_once_iff (actions : List (SocketCall Place)) :
    ClosesOnce ledger files actions ↔
      ∀ s call t, (machine Place).Takes (init ledger files) actions s call t →
        ∀ o, Closes o call → s.ClosedServer o → ¬s.Rebound o := by
  have hStep (s : SocketUse Place) (call : SocketCall Place) (t : SocketUse Place)
      (hTakes : (machine Place).Takes (init ledger files) actions s call t) (o : Place)
      (hCloses : Closes o call) (hClosed : s.ClosedServer o) : s.SameEffects t ↔ ¬s.Rebound o :=
    (kept_of_reachable hTakes.source.reachable).sameEffects_iff hCloses hClosed hTakes.step
  constructor
  · intro hOnce s call t hTakes o hCloses hClosed
    exact (hStep s call t hTakes o hCloses hClosed).mp (hOnce s call t hTakes o hCloses hClosed)
  · intro hFree s call t hTakes o hCloses hClosed
    exact (hStep s call t hTakes o hCloses hClosed).mpr (hFree s call t hTakes o hCloses hClosed)

/-- One server is closed, a second one is initialized at the same path, and then the first
is destroyed. -/
def taken : List (SocketCall Nat) :=
  [.construct 0 (ascii "x") .server, .initializeSocket 0 (.done 3), .close 0,
    .construct 1 (ascii "x") .server, .initializeSocket 1 (.done 3), .destroy 0]

theorem closed_server_unlinks_other : ¬∀ (ledger : Ledger Nat) (files : List UInt8 → Option PathEntry)
    (actions : List (SocketCall Nat)), ClosesOnce ledger files actions := by
  intro hClaim
  have hOnce := hClaim ⟨fun _ => none, 0, fun _ => none⟩ (fun _ => none) taken
  obtain ⟨s, hRun⟩ : ∃ s, (machine Nat).run (init ⟨fun _ => none, 0, fun _ => none⟩ fun _ => none)
      taken.dropLast = some s := ⟨_, rfl⟩
  have hLast : ∃ t, (machine Nat).step s (.destroy 0) = some t ∧ s.ClosedServer 0 ∧
      t.sockets.files (socketPath (ascii "x")) = none ∧
      s.sockets.files (socketPath (ascii "x")) = some (.bound 1) := by
    cases hRun
    exact ⟨_, rfl, ⟨rfl, _, rfl, rfl⟩, rfl, rfl⟩
  obtain ⟨t, hStep, hClosed, hGone, hBound⟩ := hLast
  have hSame := (hOnce s (.destroy 0) t ⟨taken.dropLast, [], rfl, hRun, hStep⟩ 0 rfl hClosed).2
  rw [← hSame, hGone] at hBound
  cases hBound

end SocketUse
end HyCAN
