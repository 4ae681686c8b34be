import HyCAN.Interface.StopEvent

/-! Where a read of the reaper sleeps. It is the reaper's only read, so no two sockets have
one, and its socket keeps it wherever `close` and `ensure_connected` leave the socket. -/
namespace HyCAN

namespace CanSockets

variable {sockets : CanSockets} {place other : CanSocketPlace}

/-- No read sleeps in a socket at another place. -/
def SleepsAt (sockets : CanSockets) (place : CanSocketPlace) : Prop :=
  ∀ other socket, sockets other = some socket → socket.sleeping = true → other = place

theorem SleepsAt.set {new : Option CanSocket} (h : sockets.SleepsAt place)
    (hNew : ∀ socket, new = some socket → socket.sleeping = true → other = place) :
    (sockets.set other new).SleepsAt place := by
  intro third socket hSocket hSleeping
  by_cases hSame : third = other
  · rw [hSame, set_self] at hSocket
    exact hSame ▸ hNew socket hSocket hSleeping
  · rw [set_of_ne _ hSame] at hSocket
    exact h third socket hSocket hSleeping

/-- The socket of `sock_fd` takes its read along. -/
theorem SleepsAt.move (h : sockets.SleepsAt place) :
    (sockets.move other).SleepsAt (if place = .current then other else place) := by
  intro third socket hSocket hSleeping
  have hNotCurrent : third ≠ .current := by
    rintro rfl
    rw [CanSockets.move, set_self] at hSocket
    cases hSocket
  rw [CanSockets.move, set_of_ne _ hNotCurrent] at hSocket
  by_cases hSame : third = other
  · rw [hSame, set_self] at hSocket
    rw [if_pos (h .current socket hSocket hSleeping).symm, hSame]
  · rw [set_of_ne _ hSame] at hSocket
    have hPlace := h third socket hSocket hSleeping
    rw [if_neg (hPlace ▸ hNotCurrent), hPlace]

theorem SleepsAt.close (h : sockets.SleepsAt place) : ∃ other, sockets.close.SleepsAt other := by
  unfold CanSockets.close
  split
  · exact ⟨place, h⟩
  · split
    · exact ⟨_, h.move⟩
    · exact ⟨place, h.set (by simp)⟩

theorem SleepsAt.release (h : sockets.SleepsAt place) : ∃ other, sockets.release.SleepsAt other := by
  unfold CanSockets.release
  split
  · exact ⟨place, h⟩
  · split
    · exact h.close
    · exact ⟨_, h.move⟩

theorem SleepsAt.modify {change : CanSocket → CanSocket} (h : sockets.SleepsAt place)
    (hChange : ∀ socket, (change socket).sleeping = socket.sleeping) :
    (sockets.modify change).SleepsAt place := by
  refine h.set fun changed hChanged hSleeping => ?_
  obtain ⟨socket, hSocket, rfl⟩ := Option.map_eq_some_iff.mp hChanged
  exact h .current socket hSocket (hChange socket ▸ hSleeping)

/-- With the read of its place gone, there is none. -/
theorem SleepsAt.awake {new : Option CanSocket} (h : sockets.SleepsAt place)
    (hNew : ∀ socket, new = some socket → socket.sleeping = false) :
    (sockets.set place new).All (·.sleeping = false) := by
  intro other socket hSocket
  by_cases hSame : other = place
  · rw [hSame, set_self] at hSocket
    exact hNew socket hSocket
  · rw [set_of_ne _ hSame] at hSocket
    rw [← Bool.not_eq_true]
    exact fun hSleeping => hSame (h other socket hSocket hSleeping)

theorem sleepsAt_of_awake (h : sockets.All (·.sleeping = false)) : sockets.SleepsAt place := by
  intro other socket hSocket hSleeping
  rw [h other socket hSocket] at hSleeping
  cases hSleeping

end CanSockets

namespace Dispatcher

open Transition

variable {Tid Func : Type} {s t : Dispatcher Tid Func}

/-- No reaper sleeps. -/
def Awake (s : Dispatcher Tid Func) : Prop :=
  ∀ reaper, s.reapThread = some reaper → reaper.pc.sleepsOn = none

/-- At most one socket has a sleeping read, and none while the reaper is awake. -/
structure SleepsOnce (s : Dispatcher Tid Func) : Prop where
  one : ∃ place, s.sockets.SleepsAt place
  awake : s.Awake → s.sockets.All (·.sleeping = false)

theorem SleepsOnce.of_awake (h : s.sockets.All (·.sleeping = false)) : s.SleepsOnce :=
  ⟨⟨.current, CanSockets.sleepsAt_of_awake h⟩, fun _ => h⟩

/-- A step that leaves each socket as asleep as it was, and no reaper awake that was not. -/
theorem SleepsOnce.kept (h : s.SleepsOnce)
    (hOne : ∀ place, s.sockets.SleepsAt place → ∃ other, t.sockets.SleepsAt other)
    (hAll : s.sockets.All (·.sleeping = false) → t.sockets.All (·.sleeping = false))
    (hAwake : t.Awake → s.Awake) : t.SleepsOnce := by
  obtain ⟨place, hPlace⟩ := h.one
  exact ⟨hOne place hPlace, fun hLater => hAll (h.awake (hAwake hLater))⟩

theorem SleepsOnce.modify {change : CanSocket → CanSocket} (h : s.SleepsOnce)
    (hSockets : t.sockets = s.sockets.modify change)
    (hChange : ∀ socket, (change socket).sleeping = socket.sleeping)
    (hReaper : t.reapThread = s.reapThread) : t.SleepsOnce := by
  refine h.kept (fun place hPlace => ⟨place, hSockets ▸ hPlace.modify hChange⟩) (fun hAll => ?_)
    fun hLater => ?_
  · exact hSockets ▸ hAll.modify fun socket hSocket => (hChange socket).trans hSocket
  · exact fun reaper hSame => hLater reaper (hReaper.trans hSame)

/-- The same for a socket that has been read, or has got something. -/
theorem SleepsOnce.set {place : CanSocketPlace} {socket rest : CanSocket} (h : s.SleepsOnce)
    (hSocket : s.sockets place = some socket) (hRest : rest.sleeping = socket.sleeping)
    (hSockets : t.sockets = s.sockets.set place (some rest)) (hAwake : t.Awake → s.Awake) : t.SleepsOnce := by
  refine h.kept (fun asleep hOne => ⟨asleep, hSockets ▸ hOne.set fun new hNew hSleeping => ?_⟩)
    (fun hAll => hSockets ▸ hAll.set fun new hNew => ?_) hAwake
  · cases hNew
    exact hOne place socket hSocket (hRest ▸ hSleeping)
  · cases hNew
    exact hRest.trans (hAll place socket hSocket)

theorem awake_of_pc {reaper : Reaper} (hReaper : s.reapThread = some reaper)
    (hPc : reaper.pc.sleepsOn = none) :
    s.Awake := by
  intro other hSame
  rw [hReaper] at hSame
  cases hSame
  exact hPc

theorem SleepsOnce.reap {reaper : Reaper} {action : ReapAction} (h : s.SleepsOnce)
    (hReaper : s.reapThread = some reaper) (hStep : ReapStep s reaper action t) : t.SleepsOnce := by
  have hBefore (hPc : reaper.pc.sleepsOn = none) : s.Awake := awake_of_pc hReaper hPc
  cases hStep with
  | received hPc _ _ _ hSocket hRead | readFailed hPc _ _ _ hSocket hRead =>
      refine h.set hSocket ?_ rfl fun _ => hBefore (by rw [hPc]; rfl)
      rw [(CanSocket.eq_of_read hRead).1]
  | fellAsleep hPc =>
      have hAwake := h.awake (hBefore (by rw [hPc]; rfl))
      refine ⟨⟨_, (CanSockets.sleepsAt_of_awake hAwake).set fun _ _ _ => rfl⟩, fun hLater => ?_⟩
      cases hLater _ rfl
  | wokeReceived hPc hSocket hSleeping | wokeFailed hPc hSocket hSleeping =>
      obtain ⟨place, hOne⟩ := h.one
      obtain rfl := hOne _ _ hSocket hSleeping
      refine .of_awake (hOne.awake fun socket hNew => ?_)
      split_ifs at hNew
      cases hNew
      rfl
  | epollWait hPc | interrupted hPc | interruptedStop hPc | waitFailed hPc | batchDone hPc | stopTaken hPc
  | stopNotTaken hPc | notReadable hPc | drained hPc | readClosed hPc | acquired hPc | faulted hPc
  | dropped hPc | called hPc | released hPc =>
      exact ⟨h.one, fun _ => h.awake (hBefore (by rw [hPc]; rfl))⟩

theorem SleepsOnce.start {action : StartAction} (h : s.SleepsOnce) (hStep : StartStep s action t) :
    t.SleepsOnce := by
  cases hStep with
  | called => exact h.kept (fun _ hOne => hOne.release) (fun hAll => hAll.release) id
  | bindFailed => exact h.kept (fun _ hOne => hOne.close) (fun hAll => hAll.close) id
  | opened =>
      refine h.kept (fun place hOne => ⟨place, hOne.set fun socket hNew hSleeping => ?_⟩)
        (fun hAll => hAll.set fun socket hNew => ?_) id
      · cases hNew
        cases hSleeping
      · cases hNew
        rfl
  | bound | unblocked | added | flushFailed => exact h.modify rfl (fun _ => rfl) rfl
  | flushed hPc hSocket hRead | flushDone hPc hSocket hRead =>
      refine h.set hSocket ?_ rfl id
      rw [(CanSocket.eq_of_read hRead).1]
  | spawned hPc hNone =>
      refine .of_awake (h.awake fun reaper hReaper => ?_)
      rw [hNone] at hReaper
      cases hReaper
  | openFailed | addFailed | alreadyRunning => exact ⟨h.one, h.awake⟩

theorem SleepsOnce.stop {action : StopAction} (h : s.SleepsOnce) (hStep : StopStep s action t) :
    t.SleepsOnce := by
  cases hStep with
  | @requested reaper hPc hReaper =>
      refine ⟨h.one, fun hLater => h.awake (awake_of_pc hReaper ?_)⟩
      exact hLater { reaper with stopRequested := true } rfl
  | joined hPc hReaper hExited =>
      exact ⟨h.one, fun _ => h.awake (awake_of_pc hReaper (by rw [hExited]; rfl))⟩
  | notRunning => exact h
  | written | writeFailed => exact ⟨h.one, h.awake⟩

theorem sleepsOnce_of_reachable [DecidableEq Tid] {threadEventFd : Fd}
    (hReachable : (machine Tid Func).Reachable (init threadEventFd) s) : s.SleepsOnce := by
  refine hReachable.invariant (P := SleepsOnce) (.of_awake (by intro place socket hSocket; cases hSocket)) ?_
  intro s action t h hTaken
  cases machine_step hTaken with
  | reap hReaper hStep => exact h.reap hReaper hStep
  | register hStep => cases hStep <;> exact ⟨h.one, h.awake⟩
  | start hStep => exact h.start hStep
  | stop hStep => exact h.stop hStep
  | kernel hStep =>
      cases hStep with
      | arrived hSocket | failed hSocket => exact h.set hSocket (by rfl) rfl id

end Dispatcher
end HyCAN
