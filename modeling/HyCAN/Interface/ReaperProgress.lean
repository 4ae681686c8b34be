import HyCAN.Interface.PendingWork
import HyCAN.Interface.RegisterProgress
import HyCAN.Interface.SleepingRead

/-! Whether the reaper gets back to a blocking `epoll_wait`. Nothing new arrives: no frame, no
error, no signal, no step of `start` or `stop` and no call of `register_func`. The calls of
`register_func` that have begun go on, at any pace. -/
namespace HyCAN

/-- What a reaper inside a batch does next, while it is awake. -/
def ReaperPc.next : ReaperPc → Option Dispatcher.ReapAction
  | .scanning _ => some .test
  | .reading _ _ => some .read
  | .holding _ _ _ => some .lock
  | .locked _ _ _ => some .dispatch
  | .unlocking _ => some .unlock
  | .waiting | .asleep _ _ | .fault _ | .exited => none

/-- Where a read leads to. -/
def ReaperPc.afterRead (fd : Fd) (events : List EpollEvent) : Option CanFrame → ReaperPc
  | none => .scanning events
  | some frame => .holding fd frame events

namespace Dispatcher

open Transition

variable {Tid Func : Type}

/-- The open descriptors: the eventfd, the socket of `sock_fd`, and descriptor 0 where it is left. -/
def descriptors (s : Dispatcher Tid Func) : List CanSocket :=
  .eventfd s.threadEventFd s.counter :: ((s.sockets .current).toList ++ (s.sockets .leftover).toList)

def pendingWork (copies : Tid → Nat → Bool) (s : Dispatcher Tid Func) : PendingWork :=
  ⟨s.threadEventFd, s.descriptors, s.LockComes copies⟩

/-- What the read that sleeps in this socket takes, and the descriptors that it leaves. -/
def wakes (s : Dispatcher Tid Func) (place : CanSocketPlace) : Option (Option CanFrame × List CanSocket) :=
  (s.sockets place).bind fun socket =>
    if socket.sleeping then socket.take.map fun (frame, rest) =>
      (frame, ({ s with sockets := s.sockets.woken place rest } : Dispatcher Tid Func).descriptors)
    else none

variable [DecidableEq Tid]

/-- The reaper returns, or comes back to an `epoll_wait` that blocks, after finitely many
steps: whatever order the events are reported in, and whichever thread moves next. Each
batch leaves less pending than there was before it; `bound` is what the current one has to
stay below. -/
inductive Settles (copies : Tid → Nat → Bool) : Nat → Dispatcher Tid Func → Prop where
  | exited {bound : Nat} {s : Dispatcher Tid Func} {reaper : Reaper}
      (hReaper : s.reapThread = some reaper) (hPc : reaper.pc = .exited) : Settles copies bound s
  | waiting {bound : Nat} {s : Dispatcher Tid Func} {reaper : Reaper}
      (hReaper : s.reapThread = some reaper) (hPc : reaper.pc = .waiting)
      (hLess : (s.pendingWork copies).amount < bound)
      (hBatch : ∀ events t, s.reapProcess reaper (.epollWait events) = some t →
        Settles copies (s.pendingWork copies).amount t)
      (hOthers : ∀ t, s.Proceeds copies t → Settles copies bound t) : Settles copies bound s
  | busy {bound : Nat} {s : Dispatcher Tid Func} {reaper : Reaper}
      (hReaper : s.reapThread = some reaper) (hPc : reaper.pc ≠ .waiting)
      (hMoves : (∃ action t, s.reapProcess reaper action = some t) ∨ ∃ t, s.Proceeds copies t)
      (hReaps : ∀ action t, s.reapProcess reaper action = some t → Settles copies bound t)
      (hOthers : ∀ t, s.Proceeds copies t → Settles copies bound t) : Settles copies bound s

/-- A reachable state with the reaper at a given place. -/
structure At (threadEventFd : Fd) (s : Dispatcher Tid Func) (stop : Bool) (pc : ReaperPc) : Prop where
  reachable : (machine Tid Func).Reachable (init threadEventFd) s
  reaper : s.reapThread = some ⟨stop, pc⟩

section Descriptors

variable {s t : Dispatcher Tid Func} {copies : Tid → Nat → Bool} {place : CanSocketPlace}
  {socket rest : CanSocket}

omit [DecidableEq Tid]

theorem mem_descriptors {descriptor : CanSocket} : descriptor ∈ s.descriptors ↔
    descriptor = .eventfd s.threadEventFd s.counter ∨
      ∃ place, place ≠ .closed ∧ s.sockets place = some descriptor := by
  have hPlaces : (∃ place, place ≠ .closed ∧ s.sockets place = some descriptor) ↔
      s.sockets .current = some descriptor ∨ s.sockets .leftover = some descriptor := by
    constructor
    · rintro ⟨place, hOpen, hSocket⟩
      cases place with
      | current => exact .inl hSocket
      | leftover => exact .inr hSocket
      | closed => exact absurd rfl hOpen
    · rintro (hSocket | hSocket)
      · exact ⟨.current, by decide, hSocket⟩
      · exact ⟨.leftover, by decide, hSocket⟩
  rw [hPlaces, descriptors, List.mem_cons, List.mem_append, Option.mem_toList, Option.mem_toList]

theorem WellBatched.distinct (h : s.WellBatched) : (s.pendingWork copies).Distinct := by
  have hEvent {place : CanSocketPlace} {socket : CanSocket} (hSocket : s.sockets place = some socket) :
      socket.fd ≠ s.threadEventFd := h.numbered.event place socket hSocket
  show (s.descriptors.map CanSocket.fd).Nodup
  cases hCurrent : s.sockets .current with
  | none =>
      cases hLeftover : s.sockets .leftover with
      | none => simp [descriptors, hCurrent, hLeftover]
      | some second => simp [descriptors, hCurrent, hLeftover, CanSocket.eventfd, (hEvent hLeftover).symm]
  | some first =>
      cases hLeftover : s.sockets .leftover with
      | none => simp [descriptors, hCurrent, hLeftover, CanSocket.eventfd, (hEvent hCurrent).symm]
      | some second =>
          simp [descriptors, hCurrent, hLeftover, CanSocket.eventfd, (hEvent hCurrent).symm,
            (hEvent hLeftover).symm, h.numbered.distinct first second hCurrent hLeftover]

theorem WellBatched.read_eventfd (h : s.WellBatched) : (s.pendingWork copies).read s.threadEventFd =
    (CanSocket.eventfd s.threadEventFd s.counter).read.map fun (frame, rest) =>
      (frame, (s.pendingWork copies).put rest) :=
  PendingWork.Distinct.read h.distinct (mem_descriptors.mpr (.inl rfl))

theorem WellBatched.read_socket (h : s.WellBatched) (hOpen : place ≠ .closed)
    (hSocket : s.sockets place = some socket) : (s.pendingWork copies).read socket.fd =
      socket.read.map fun (frame, rest) => (frame, (s.pendingWork copies).put rest) :=
  PendingWork.Distinct.read h.distinct (mem_descriptors.mpr (.inr ⟨place, hOpen, hSocket⟩))

/-- `epoll_wait` reports what is pending. -/
theorem readyEvents_eq (s : Dispatcher Tid Func) : (s.pendingWork copies).readyEvents = s.readyEvents := by
  have hCounter : (CanSocket.eventfd s.threadEventFd s.counter).ready =
      if s.counter ≠ 0 then [⟨s.threadEventFd, true, false⟩] else [] := by
    by_cases hZero : s.counter = 0 <;> simp [CanSocket.ready, CanSocket.eventfd, hZero]
  have hPlace (place : CanSocketPlace) : (s.sockets place).toList.flatMap CanSocket.ready =
      ((s.sockets place).map CanSocket.ready).getD [] := by
    cases s.sockets place <;> simp
  rw [PendingWork.readyEvents, readyEvents, pendingWork, descriptors, List.flatMap_cons, List.flatMap_append,
    hCounter, hPlace, hPlace, List.append_assoc]

theorem wakes_of_take {frame : Option CanFrame} (hSocket : s.sockets place = some socket)
    (hSleeping : socket.sleeping = true) (hTake : socket.take = some (frame, rest)) :
    s.wakes place = some (frame,
      ({ s with sockets := s.sockets.woken place rest } : Dispatcher Tid Func).descriptors) := by
  simp [wakes, hSocket, hSleeping, hTake]

theorem map_put_of_ne {descriptors : List CanSocket}
    (h : ∀ descriptor ∈ descriptors, descriptor.fd ≠ rest.fd) :
    descriptors.map (fun descriptor => if descriptor.fd = rest.fd then rest else descriptor) =
      descriptors := by
  conv_rhs => rw [← List.map_id descriptors]
  exact List.map_congr_left fun descriptor hMem => if_neg (h descriptor hMem)

/-- The counter is the value of the eventfd. -/
theorem WellBatched.descriptors_counter (h : s.WellBatched) (counter : Nat) :
    ({ s with counter } : Dispatcher Tid Func).descriptors =
      ((s.pendingWork copies).put (.eventfd s.threadEventFd counter)).descriptors := by
  have hSockets : ∀ descriptor ∈ (s.sockets .current).toList ++ (s.sockets .leftover).toList,
      descriptor.fd ≠ (CanSocket.eventfd s.threadEventFd counter).fd := by
    intro descriptor hMem
    rcases List.mem_append.mp hMem with hCurrent | hLeftover
    · exact h.numbered.event .current descriptor (by simpa using hCurrent)
    · exact h.numbered.event .leftover descriptor (by simpa using hLeftover)
  simp only [descriptors, pendingWork, PendingWork.put]
  rw [List.map_cons, map_put_of_ne hSockets]
  exact congrArg (· :: _) (if_pos rfl).symm

theorem WellBatched.descriptors_set (h : s.WellBatched) (hOpen : place ≠ .closed)
    (hSocket : s.sockets place = some socket) (hFd : rest.fd = socket.fd) :
    ({ s with sockets := s.sockets.set place (some rest) } : Dispatcher Tid Func).descriptors =
      ((s.pendingWork copies).put rest).descriptors := by
  have hEvent : s.threadEventFd ≠ rest.fd := hFd ▸ (h.numbered.event place socket hSocket).symm
  cases place with
  | closed => exact absurd rfl hOpen
  | current =>
      have hOther : ∀ descriptor ∈ (s.sockets .leftover).toList, descriptor.fd ≠ rest.fd := by
        intro descriptor hMem
        rw [hFd]
        exact (h.numbered.distinct socket descriptor hSocket (by simpa using hMem)).symm
      simp [descriptors, pendingWork, PendingWork.put, CanSocket.eventfd, hEvent, hSocket, hFd.symm,
        CanSockets.set_of_ne, map_put_of_ne hOther]
  | leftover =>
      have hOther : ∀ descriptor ∈ (s.sockets .current).toList, descriptor.fd ≠ rest.fd := by
        intro descriptor hMem
        rw [hFd]
        exact h.numbered.distinct descriptor socket (by simpa using hMem) hSocket
      simp [descriptors, pendingWork, PendingWork.put, CanSocket.eventfd, hEvent, hSocket, hFd.symm,
        CanSockets.set_of_ne, map_put_of_ne hOther]

end Descriptors

section Others

variable {threadEventFd : Fd} {copies : Tid → Nat → Bool} {bound : Nat} {stop : Bool} {pc : ReaperPc}
  {s t : Dispatcher Tid Func} {action : ReapAction} {reaper : Reaper}

theorem At.proceeds (hAt : s.At threadEventFd stop pc) (h : s.Proceeds copies t) :
    t.At threadEventFd stop pc :=
  ⟨h.reachable hAt.reachable, h.frame.1.trans hAt.reaper⟩

/-- What is pending is not a matter of the other threads. -/
theorem At.pendingWork_proceeds (hAt : s.At threadEventFd stop pc) (h : s.Proceeds copies t) :
    t.pendingWork copies = s.pendingWork copies := by
  obtain ⟨_, hSockets, hCounter, hFd⟩ := h.frame
  simp only [pendingWork, descriptors, hSockets, hCounter, hFd, h.lockComes_iff hAt.reachable]

/-- The reaper goes on to the place `next`. -/
theorem At.reap {next : ReaperPc} (hAt : s.At threadEventFd stop pc)
    (hStep : s.reapProcess ⟨stop, pc⟩ action = some t) (hMoved : t.reapThread = some ⟨stop, next⟩) :
    t.At threadEventFd stop next := by
  obtain ⟨actions, hRun⟩ := hAt.reachable
  refine ⟨⟨actions ++ [.reap action], ?_⟩, hMoved⟩
  refine ((machine Tid Func).run_concat_eq_some (a := .reap action)).mpr ⟨s, hRun, ?_⟩
  exact Option.bind_eq_some_iff.mpr ⟨_, hAt.reaper, hStep⟩

theorem At.pendingWork_reap {descriptors : List CanSocket} (hAt : s.At threadEventFd stop pc)
    (hStep : s.reapProcess ⟨stop, pc⟩ action = some t) (hDescriptors : t.descriptors = descriptors) :
    t.pendingWork copies = { s.pendingWork copies with descriptors } := by
  have hReap := reapStep hStep
  simp only [pendingWork, hDescriptors, hReap.lockComes_iff hAt.reaper, hReap.frame.1]

omit [DecidableEq Tid] in
theorem action_of_next {next : ReapAction} (hNext : pc.next = some next)
    (hStep : s.reapProcess ⟨stop, pc⟩ action = some t) : action = next := by
  cases pc <;> cases action <;> simp_all [ReaperPc.next, reapProcess]

/-- What holds along the steps of the other threads, and makes the reaper settle once they
have been taken, makes it settle now. -/
theorem settles_of_closed {P : Dispatcher Tid Func → Prop}
    (hReachable : ∀ s, P s → (machine Tid Func).Reachable (init threadEventFd) s)
    (hClosed : ∀ s t, P s → s.Proceeds copies t → P t)
    (hSettles : ∀ s, P s → (∀ t, s.Proceeds copies t → Settles copies bound t) → Settles copies bound s)
    (h : P s) : Settles copies bound s := by
  have hAcc : Acc (fun later s => s.Proceeds copies later) s := acc_proceeds (hReachable s h)
  induction hAcc with
  | intro s _ ih => exact hSettles s h fun t hProceeds => ih t hProceeds (hClosed s t h hProceeds)

/-- The other threads leave the reaper where it is, with the same work pending. -/
theorem At.settles (hAt : s.At threadEventFd stop pc)
    (hSettles : ∀ u : Dispatcher Tid Func, u.At threadEventFd stop pc →
      u.pendingWork copies = s.pendingWork copies →
        (∀ t, u.Proceeds copies t → Settles copies bound t) → Settles copies bound u) :
    Settles copies bound s := by
  refine settles_of_closed (P := fun u => u.At threadEventFd stop pc ∧
    u.pendingWork copies = s.pendingWork copies) (fun u hu => hu.1.reachable) ?_ ?_ ⟨hAt, rfl⟩
  · rintro u v ⟨hThere, hWork⟩ hProceeds
    exact ⟨hThere.proceeds hProceeds, (hThere.pendingWork_proceeds hProceeds).trans hWork⟩
  · rintro u ⟨hThere, hWork⟩ hOthers
    exact hSettles u hThere hWork hOthers

/-- A reaper that never moves again does not settle. -/
theorem not_settles_of_stuck (reaper : Reaper) {P : Dispatcher Tid Func → Prop}
    (hClosed : ∀ s t, P s → s.Proceeds copies t → P t)
    (hStuck : ∀ s, P s → s.reapThread = some reaper ∧ ∀ action, s.reapProcess reaper action = none)
    (hPc : reaper.pc ≠ .waiting ∧ reaper.pc ≠ .exited) (h : P s) : ¬Settles copies bound s := by
  intro hSettles
  induction hSettles with
  | exited hReaper hThere | waiting hReaper hThere =>
      rw [(hStuck _ h).1] at hReaper
      cases hReaper
      simp [hThere] at hPc
  | busy hReaper hBusy hMoves hReaps hOthers ihReaps ihOthers =>
      obtain ⟨hSame, hNone⟩ := hStuck _ h
      rw [hSame] at hReaper
      cases hReaper
      rcases hMoves with ⟨action, t, hStep⟩ | ⟨t, hProceeds⟩
      · rw [hNone action] at hStep
        cases hStep
      · exact ihOthers t hProceeds (hClosed _ t h hProceeds)

/-- Where the reaper can move, it settles after that. -/
theorem Settles.reaped (h : Settles copies bound s) (hReaper : s.reapThread = some reaper)
    (hPc : reaper.pc ≠ .waiting) (hStep : s.reapProcess reaper action = some t) : Settles copies bound t := by
  cases h with
  | exited hSame hThere =>
      rw [hReaper] at hSame
      cases hSame
      cases action <;> simp [reapProcess, hThere] at hStep
  | waiting hSame hThere =>
      rw [hReaper] at hSame
      cases hSame
      exact absurd hThere hPc
  | busy hSame hBusy hMoves hReaps =>
      rw [hReaper] at hSame
      cases hSame
      exact hReaps action t hStep

end Others

/-- At the place, `Settles` is a matter of the pending work. -/
def SettlesAt (Func : Type) (threadEventFd : Fd) (copies : Tid → Nat → Bool) (bound : Nat) (stop : Bool)
    (pc : ReaperPc) (Q : PendingWork → Prop) : Prop :=
  ∀ s : Dispatcher Tid Func, s.At threadEventFd stop pc →
    (Settles copies bound s ↔ Q (s.pendingWork copies))

section Places

variable {threadEventFd : Fd} {copies : Tid → Nat → Bool} {bound : Nat} {stop : Bool} {pc : ReaperPc}
  {s t : Dispatcher Tid Func} {Q : PendingWork → Prop} {events : List EpollEvent}

/-- A reaper that can always move settles if it does after its step. -/
theorem settles_iff_of_step {action : ReapAction} {R : Prop} (hAt : s.At threadEventFd stop pc)
    (hNext : pc.next = some action)
    (hStep : ∀ u : Dispatcher Tid Func, u.At threadEventFd stop pc →
      u.pendingWork copies = s.pendingWork copies →
        ∃ t, u.reapProcess ⟨stop, pc⟩ action = some t ∧ (Settles copies bound t ↔ R)) :
    Settles copies bound s ↔ R := by
  have hPc : pc ≠ .waiting := by
    rintro rfl
    cases hNext
  constructor
  · intro h
    obtain ⟨t, hTaken, hSettles⟩ := hStep s hAt rfl
    exact hSettles.mp (h.reaped hAt.reaper hPc hTaken)
  · intro hR
    refine hAt.settles fun u hThere hWork hOthers => ?_
    obtain ⟨t, hTaken, hSettles⟩ := hStep u hThere hWork
    refine .busy hThere.reaper hPc (.inl ⟨action, t, hTaken⟩) (fun other v hAny => ?_) hOthers
    obtain rfl := action_of_next hNext hAny
    rw [hTaken] at hAny
    exact Option.some.inj hAny ▸ hSettles.mpr hR

theorem not_settles_fault (hReaper : s.reapThread = some ⟨stop, .fault events⟩) :
    ¬Settles copies bound s := by
  refine not_settles_of_stuck ⟨stop, .fault events⟩ (P := fun u => u.reapThread = some ⟨stop, .fault events⟩)
    (fun u v hThere hProceeds => hProceeds.frame.1.trans hThere) (fun u hThere => ⟨hThere, fun action => ?_⟩)
    (by simp) hReaper
  cases action <;> rfl

/-- A step to a place at which it is known what `Settles` comes to. -/
theorem SettlesAt.after {next : ReaperPc} {action : ReapAction} {descriptors : List CanSocket}
    (h : SettlesAt Func threadEventFd copies bound stop next Q) (hAt : s.At threadEventFd stop pc)
    (hStep : s.reapProcess ⟨stop, pc⟩ action = some t) (hMoved : t.reapThread = some ⟨stop, next⟩)
    (hDescriptors : t.descriptors = descriptors) :
    Settles copies bound t ↔ Q { s.pendingWork copies with descriptors } := by
  rw [h t (hAt.reap hStep hMoved), hAt.pendingWork_reap hStep hDescriptors]

theorem settlesAt_unlocking (hRest : SettlesAt Func threadEventFd copies bound stop (.scanning events) Q) :
    SettlesAt Func threadEventFd copies bound stop (.unlocking events) Q := by
  intro s hAt
  refine settles_iff_of_step hAt rfl fun u hThere hWork => ?_
  have hStep : u.reapProcess ⟨stop, .unlocking events⟩ .unlock =
      some ({ u with lock := false }.moveReaper ⟨stop, .unlocking events⟩ (.scanning events)) := rfl
  exact ⟨_, hStep, hWork ▸ hRest.after hThere hStep rfl rfl⟩

theorem settlesAt_locked {fd : Fd} {frame : CanFrame}
    (hRest : SettlesAt Func threadEventFd copies bound stop (.scanning events) Q) :
    SettlesAt Func threadEventFd copies bound stop (.locked fd frame events)
      fun w => frame.canId.toNat < maxStdCanId ∧ Q w := by
  intro s hAt
  refine settles_iff_of_step hAt rfl fun u hThere hWork => ?_
  cases hEntry : u.funcs[frame.canId.toNat]? with
  | none =>
      have hOut : ¬frame.canId.toNat < maxStdCanId := by simpa using hEntry
      refine ⟨_, by simp only [reapProcess, hEntry]; rfl, ?_⟩
      exact iff_of_false (not_settles_fault rfl) fun hIn => hOut hIn.1
  | some entry =>
      have hIn : frame.canId.toNat < maxStdCanId := by
        by_contra hOut
        have hNone : u.funcs[frame.canId.toNat]? = none := by simpa using hOut
        rw [hNone] at hEntry
        cases hEntry
      have hUnlocking := settlesAt_unlocking hRest
      simp only [hIn, true_and]
      cases entry with
      | none =>
          have hStep : u.reapProcess ⟨stop, .locked fd frame events⟩ .dispatch =
              some ((u.observe [.lookedUp]).moveReaper ⟨stop, .locked fd frame events⟩ (.unlocking events)) := by
            simp only [reapProcess, hEntry]
          exact ⟨_, hStep, hWork ▸ hUnlocking.after hThere hStep rfl rfl⟩
      | some func =>
          have hStep : u.reapProcess ⟨stop, .locked fd frame events⟩ .dispatch =
              some ((u.observe [.lookedUp, .invoked func frame]).moveReaper ⟨stop, .locked fd frame events⟩
                (.unlocking events)) := by
            simp only [reapProcess, hEntry]
          exact ⟨_, hStep, hWork ▸ hUnlocking.after hThere hStep rfl rfl⟩

variable {fd : Fd} {frame : CanFrame} {action : ReapAction}

/-- The reaper has got `lock_`. -/
theorem settles_acquired_iff (hRest : SettlesAt Func threadEventFd copies bound stop (.scanning events) Q)
    (hAt : s.At threadEventFd stop (.holding fd frame events))
    (hStep : s.reapProcess ⟨stop, .holding fd frame events⟩ action = some t) :
    Settles copies bound t ↔ frame.canId.toNat < maxStdCanId ∧ Q (s.pendingWork copies) := by
  obtain rfl : action = .lock := action_of_next rfl hStep
  cases hTaken : reapStep hStep with
  | acquired hPc hFree =>
      cases hPc
      exact (settlesAt_locked hRest).after hAt hStep rfl rfl

/-- While another thread can move, it is asked of what is there after its step; otherwise
`lock_` is free and all of them are done. -/
theorem dispatchable_of_settles (hRest : SettlesAt Func threadEventFd copies bound stop (.scanning events) Q)
    (hAt : s.At threadEventFd stop (.holding fd frame events)) (h : Settles copies bound s) :
    (s.pendingWork copies).Dispatchable frame ∧ Q (s.pendingWork copies) := by
  induction h with
  | exited hReaper hPc | waiting hReaper hPc =>
      rw [hAt.reaper] at hReaper
      cases hReaper
      cases hPc
  | @busy bound s reaper hReaper hPc hMoves hReaps hOthers _ ih =>
      by_cases hOther : ∃ t, s.Proceeds copies t
      · obtain ⟨t, hProceeds⟩ := hOther
        exact hAt.pendingWork_proceeds hProceeds ▸ ih t hProceeds hRest (hAt.proceeds hProceeds)
      · rw [hAt.reaper] at hReaper
        cases hReaper
        obtain ⟨action, t, hStep⟩ := hMoves.resolve_right hOther
        obtain ⟨hIn, hQ⟩ := (settles_acquired_iff hRest hAt hStep).mp (hReaps action t hStep)
        have hFree : s.lock = false := by
          cases reapStep hStep with
          | acquired hSame hFree => exact hFree
          | _ => simp_all
        refine ⟨⟨⟨fun hHeld => ?_, fun tid id hMem => ?_⟩, hIn⟩, hQ⟩
        · rw [lockView_held, hFree] at hHeld
          cases hHeld
        · cases hTid : s.registrars tid with
          | idle => simp [hTid, RegisterPc.ids] at hMem
          | locking ids func => exact absurd (proceeds_of_locking hTid hFree) hOther
          | looping ids func => exact absurd (proceeds_of_looping hTid) hOther

/-- A reaper that waits for `lock_` waits for a thread that can move. -/
theorem moves_of_lockComes (hAt : s.At threadEventFd stop (.holding fd frame events))
    (hComes : s.LockComes copies) :
    (∃ action t, s.reapProcess ⟨stop, .holding fd frame events⟩ action = some t) ∨
      ∃ t, s.Proceeds copies t := by
  cases hFree : s.lock with
  | false => exact .inl ⟨.lock, _, by simp only [reapProcess, hFree]; rfl⟩
  | true =>
      obtain ⟨holder, hInside⟩ := hComes.1 hFree
      cases holder with
      | reaper =>
          rw [mem_lockView_inside, inside_reaper_iff hAt.reaper] at hInside
          cases hInside
      | registrar tid =>
          cases hTid : s.registrars tid with
          | looping ids func => exact .inr (proceeds_of_looping hTid)
          | idle | locking => simp [Inside, hTid, RegisterPc.inside] at hInside

theorem settlesAt_holding (hRest : SettlesAt Func threadEventFd copies bound stop (.scanning events) Q) :
    SettlesAt Func threadEventFd copies bound stop (.holding fd frame events)
      fun w => w.Dispatchable frame ∧ Q w := by
  intro s hAt
  refine ⟨dispatchable_of_settles hRest hAt, ?_⟩
  rintro ⟨⟨hComes, hIn⟩, hQ⟩
  refine hAt.settles fun u hThere hWork hOthers => ?_
  have hLock : u.LockComes copies := (congrArg PendingWork.lockComes hWork).mpr hComes
  refine .busy hThere.reaper (by simp) (moves_of_lockComes hThere hLock) (fun action t hStep => ?_) hOthers
  exact (settles_acquired_iff hRest hThere hStep).mpr ⟨hIn, hWork ▸ hQ⟩

/-- A read that the reaper has to wait for. -/
theorem not_settles_asleep (hReaper : s.reapThread = some ⟨stop, .asleep fd events⟩)
    (hStuck : ∀ place socket, s.sockets place = some socket → socket.sleeping = true → socket.take = none) :
    ¬Settles copies bound s := by
  refine not_settles_of_stuck ⟨stop, .asleep fd events⟩ (P := fun u =>
    u.reapThread = some ⟨stop, .asleep fd events⟩ ∧ u.sockets = s.sockets) ?_ ?_ (by simp) ⟨hReaper, rfl⟩
  · rintro u v ⟨hThere, hSockets⟩ hProceeds
    exact ⟨hProceeds.frame.1.trans hThere, hProceeds.frame.2.1.trans hSockets⟩
  · rintro u ⟨hThere, hSockets⟩
    refine ⟨hThere, fun action => ?_⟩
    cases action with
    | wake place =>
        cases hSocket : s.sockets place with
        | none => simp [reapProcess, hSockets, hSocket]
        | some socket =>
            by_cases hSleeping : socket.sleeping = true
            · simp [reapProcess, hSockets, hSocket, hSleeping, hStuck place socket hSocket hSleeping]
            · simp [reapProcess, hSockets, hSocket, hSleeping]
    | _ => rfl

/-- A read has returned. -/
theorem settles_taken_iff (hRest : SettlesAt Func threadEventFd copies bound stop (.scanning events) Q)
    {result : Option CanFrame} {descriptors : List CanSocket} (hAt : s.At threadEventFd stop pc)
    (hStep : s.reapProcess ⟨stop, pc⟩ action = some t)
    (hMoved : t.reapThread = some ⟨stop, .afterRead fd events result⟩)
    (hDescriptors : t.descriptors = descriptors) :
    Settles copies bound t ↔ ({ s.pendingWork copies with descriptors } : PendingWork).Takes result Q := by
  cases result with
  | none =>
      rw [hRest.after hAt hStep hMoved hDescriptors]
      simp [PendingWork.Takes]
  | some frame =>
      rw [(settlesAt_holding hRest).after hAt hStep hMoved hDescriptors]
      simp [PendingWork.Takes]

omit [DecidableEq Tid] in
theorem takeRead_frame (s : Dispatcher Tid Func) (stop : Bool) (pc : ReaperPc) (fd : Fd)
    (events : List EpollEvent) (result : Option CanFrame) :
    (s.takeRead ⟨stop, pc⟩ fd events result).reapThread = some ⟨stop, .afterRead fd events result⟩ ∧
      (s.takeRead ⟨stop, pc⟩ fd events result).descriptors = s.descriptors := by
  cases result <;> exact ⟨rfl, rfl⟩

omit [DecidableEq Tid] in
theorem read_of_closed {number : Fd} (hPlace : s.sockets.placeOf number = none)
    (hFd : ¬number = s.threadEventFd) :
    (s.pendingWork copies).read number = some (none, s.pendingWork copies) := by
  have hFind : (s.pendingWork copies).descriptors.find? (·.fd = number) = none := by
    refine List.find?_eq_none.mpr fun descriptor hMem => ?_
    rcases mem_descriptors.mp hMem with rfl | ⟨place, hOpen, hSocket⟩
    · rw [CanSocket.eventfd_fd, decide_eq_true_eq]
      exact Ne.symm hFd
    · simpa using CanSockets.ne_of_placeOf_eq_none hPlace hOpen hSocket
  rw [PendingWork.read, hFind]

omit [DecidableEq Tid] in
/-- The reaper's read is a read of the pending work. -/
theorem reapProcess_read {event : EpollEvent} {result : Option CanFrame} {v : PendingWork} (h : s.WellBatched)
    (hIn : event.epollIn = true) (hRead : (s.pendingWork copies).read event.fd = some (result, v)) :
    ∃ t, s.reapProcess ⟨stop, .reading event events⟩ .read = some t ∧
      t.reapThread = some ⟨stop, .afterRead event.fd events result⟩ ∧ t.descriptors = v.descriptors := by
  by_cases hFd : event.fd = s.threadEventFd
  · rw [hFd, h.read_eventfd] at hRead
    by_cases hCounter : s.counter = 0
    · simp [hCounter, CanSocket.read_eventfd_zero] at hRead
    · rw [CanSocket.read_eventfd _ hCounter] at hRead
      obtain ⟨rfl, rfl⟩ := Prod.mk.inj (Option.some.inj hRead)
      rw [hFd]
      refine ⟨{ s with counter := 0 }.moveReaper ⟨stop, .reading event events⟩
        (.holding s.threadEventFd (.ofCounter s.counter) events), ?_, rfl, h.descriptors_counter 0⟩
      simp [reapProcess, hIn, hFd, hCounter]
  · cases hPlace : s.sockets.placeOf event.fd with
    | none =>
        rw [read_of_closed hPlace hFd] at hRead
        obtain ⟨rfl, rfl⟩ := Prod.mk.inj (Option.some.inj hRead)
        refine ⟨s.moveReaper ⟨stop, .reading event events⟩ (.scanning events), ?_, rfl, rfl⟩
        simp [reapProcess, hIn, hFd, hPlace]
    | some place =>
        obtain ⟨hOpen, socket, hSocket, hNumber⟩ := CanSockets.place_of_placeOf hPlace
        rw [← hNumber, h.read_socket hOpen hSocket] at hRead
        obtain ⟨⟨frame, rest⟩, hResult, hPut⟩ := Option.map_eq_some_iff.mp hRead
        obtain ⟨rfl, rfl⟩ := Prod.mk.inj hPut
        obtain ⟨hMoved, hKept⟩ := takeRead_frame { s with sockets := s.sockets.set place (some rest) } stop
          (.reading event events) event.fd events frame
        refine ⟨_, ?_, hMoved, hKept.trans (h.descriptors_set hOpen hSocket (CanSocket.fd_of_read hResult))⟩
        simp [reapProcess, hIn, hFd, hPlace, hSocket, hResult]

/-- With the counter at zero the eventfd blocks. -/
theorem not_settles_event {event : EpollEvent} (hReaper : s.reapThread = some ⟨stop, .reading event events⟩)
    (hIn : event.epollIn = true) (hFd : event.fd = s.threadEventFd) (hCounter : s.counter = 0) :
    ¬Settles copies bound s := by
  refine not_settles_of_stuck ⟨stop, .reading event events⟩ (P := fun u =>
    u.reapThread = some ⟨stop, .reading event events⟩ ∧ event.fd = u.threadEventFd ∧ u.counter = 0) ?_ ?_
    (by simp) ⟨hReaper, hFd, hCounter⟩
  · rintro u v ⟨hThere, hSame, hZero⟩ hProceeds
    obtain ⟨hKept, _, hKeptCounter, hKeptFd⟩ := hProceeds.frame
    exact ⟨hKept.trans hThere, hSame.trans hKeptFd.symm, hKeptCounter.trans hZero⟩
  · rintro u ⟨hThere, hSame, hZero⟩
    refine ⟨hThere, fun action => ?_⟩
    cases action with
    | read => simp [reapProcess, hIn, hSame, hZero]
    | _ => rfl

/-- And so does a socket that has nothing to read before its `fcntl`. -/
theorem not_settles_blocked {event : EpollEvent} (hAt : s.At threadEventFd stop (.reading event events))
    (hIn : event.epollIn = true) (hRead : (s.pendingWork copies).read event.fd = none) :
    ¬Settles copies bound s := by
  have hWell := wellBatched_of_reachable hAt.reachable
  by_cases hFd : event.fd = s.threadEventFd
  · refine not_settles_event hAt.reaper hIn hFd (by_contra fun hCounter => ?_)
    rw [hFd, hWell.read_eventfd, CanSocket.read_eventfd _ hCounter] at hRead
    cases hRead
  · cases hPlace : s.sockets.placeOf event.fd with
    | none =>
        rw [read_of_closed hPlace hFd] at hRead
        cases hRead
    | some place =>
        obtain ⟨hOpen, socket, hSocket, hNumber⟩ := CanSockets.place_of_placeOf hPlace
        rw [← hNumber, hWell.read_socket hOpen hSocket, Option.map_eq_none_iff] at hRead
        have hStep : s.reapProcess ⟨stop, .reading event events⟩ .read =
            some ({ s with sockets := s.sockets.set place (some { socket with sleeping := true }) }.moveReaper
              ⟨stop, .reading event events⟩ (.asleep event.fd events)) := by
          simp [reapProcess, hIn, hFd, hPlace, hSocket, hRead]
        intro hSettles
        refine not_settles_asleep rfl ?_ (hSettles.reaped hAt.reaper (by simp) hStep)
        -- no other read sleeps, and this one finds nothing
        intro other slept hThere hSleeping
        have hAwake := (sleepsOnce_of_reachable hAt.reachable).awake (awake_of_pc hAt.reaper rfl)
        change s.sockets.set place (some { socket with sleeping := true }) other = some slept at hThere
        by_cases hSame : other = place
        · rw [hSame, CanSockets.set_self] at hThere
          cases hThere
          have hNothing := CanSocket.take_eq_none_iff.mp (CanSocket.take_of_read_none hRead)
          exact CanSocket.take_eq_none_iff.mpr hNothing
        · rw [CanSockets.set_of_ne _ hSame] at hThere
          rw [hAwake other slept hThere] at hSleeping
          cases hSleeping

theorem settlesAt_reading {event : EpollEvent}
    (hRest : SettlesAt Func threadEventFd copies bound stop (.scanning events) Q) :
    SettlesAt Func threadEventFd copies bound stop (.reading event events) fun w => w.Reads event Q := by
  intro s hAt
  show _ ↔ (s.pendingWork copies).Reads event Q
  by_cases hIn : event.epollIn = true
  swap
  · refine settles_iff_of_step hAt rfl fun u hThere hWork => ?_
    have hStep : u.reapProcess ⟨stop, .reading event events⟩ .read =
        some (u.moveReaper ⟨stop, .reading event events⟩ (.scanning events)) := by
      simp [reapProcess, hIn]
    refine ⟨_, hStep, ?_⟩
    rw [PendingWork.Reads, if_neg hIn, ← hWork]
    exact hRest.after hThere hStep rfl rfl
  rw [PendingWork.Reads, if_pos hIn]
  cases hRead : (s.pendingWork copies).read event.fd with
  | none => exact iff_of_false (not_settles_blocked hAt hIn hRead) (by simp)
  | some taken =>
      obtain ⟨result, v⟩ := taken
      simp only [Option.some.injEq, Prod.mk.injEq, exists_and_left, exists_eq_left', and_assoc]
      refine settles_iff_of_step hAt rfl fun u hThere hWork => ?_
      rw [← hWork] at hRead
      obtain ⟨t, hStep, hMoved, hDescriptors⟩ :=
        reapProcess_read (wellBatched_of_reachable hThere.reachable) hIn hRead
      rw [PendingWork.eq_of_read hRead]
      exact ⟨t, hStep, settles_taken_iff hRest hThere hStep hMoved hDescriptors⟩

theorem wakes_proceeds (h : s.Proceeds copies t) : t.wakes = s.wakes := by
  obtain ⟨_, hSockets, hCounter, hFd⟩ := h.frame
  funext place
  simp only [wakes, descriptors, hSockets, hCounter, hFd]

omit [DecidableEq Tid] in
theorem reapProcess_wake {place : CanSocketPlace} {result : Option CanFrame} {descriptors : List CanSocket}
    (hWakes : s.wakes place = some (result, descriptors)) :
    ∃ t, s.reapProcess ⟨stop, .asleep fd events⟩ (.wake place) = some t ∧
      t.reapThread = some ⟨stop, .afterRead fd events result⟩ ∧ t.descriptors = descriptors := by
  obtain ⟨socket, hSocket, hTaken⟩ := Option.bind_eq_some_iff.mp hWakes
  split_ifs at hTaken with hSleeping
  obtain ⟨⟨frame, rest⟩, hTake, hLeft⟩ := Option.map_eq_some_iff.mp hTaken
  obtain ⟨rfl, rfl⟩ := Prod.mk.inj hLeft
  obtain ⟨hMoved, hKept⟩ := takeRead_frame { s with sockets := s.sockets.woken place rest } stop
    (.asleep fd events) fd events frame
  exact ⟨_, by simp only [reapProcess, hSocket, if_pos hSleeping, hTake]; rfl, hMoved, hKept⟩

omit [DecidableEq Tid] in
theorem wakes_of_reapProcess (hStep : s.reapProcess ⟨stop, .asleep fd events⟩ action = some t) :
    ∃ place result, s.wakes place = some (result, t.descriptors) ∧
      t.reapThread = some ⟨stop, .afterRead fd events result⟩ := by
  cases reapStep hStep with
  | @wokeReceived _ _ place _ _ frame hPc hSocket hSleeping hTake =>
      cases hPc
      exact ⟨place, some frame, wakes_of_take hSocket hSleeping hTake, rfl⟩
  | @wokeFailed _ _ place _ _ hPc hSocket hSleeping hTake =>
      cases hPc
      exact ⟨place, none, wakes_of_take hSocket hSleeping hTake, rfl⟩
  | _ => simp_all

/-- A sleeping read has something to take, and whatever it takes, the rest of the batch goes
through. -/
theorem settles_asleep_iff (hRest : SettlesAt Func threadEventFd copies bound stop (.scanning events) Q)
    (hAt : s.At threadEventFd stop (.asleep fd events)) :
    Settles copies bound s ↔ (∃ place taken, s.wakes place = some taken) ∧
      ∀ place result descriptors, s.wakes place = some (result, descriptors) →
        ({ s.pendingWork copies with descriptors } : PendingWork).Takes result Q := by
  by_cases hSome : ∃ place taken, s.wakes place = some taken
  · rw [and_iff_right hSome]
    constructor
    · intro h place result descriptors hWakes
      obtain ⟨t, hStep, hMoved, hDescriptors⟩ := reapProcess_wake hWakes
      exact (settles_taken_iff hRest hAt hStep hMoved hDescriptors).mp (h.reaped hAt.reaper (by simp) hStep)
    · intro hAll
      refine settles_of_closed (P := fun u => u.At threadEventFd stop (.asleep fd events) ∧
        u.pendingWork copies = s.pendingWork copies ∧ u.wakes = s.wakes) (fun u hu => hu.1.reachable) ?_ ?_
        ⟨hAt, rfl, rfl⟩
      · rintro u v ⟨hThere, hWork, hWakes⟩ hProceeds
        exact ⟨hThere.proceeds hProceeds, (hThere.pendingWork_proceeds hProceeds).trans hWork,
          (wakes_proceeds hProceeds).trans hWakes⟩
      · rintro u ⟨hThere, hWork, hWakes⟩ hOthers
        obtain ⟨place, ⟨result, descriptors⟩, hTaken⟩ := hSome
        obtain ⟨t, hStep, _⟩ := reapProcess_wake (hWakes ▸ hTaken)
        refine .busy hThere.reaper (by simp) (.inl ⟨_, t, hStep⟩) (fun action v hAny => ?_) hOthers
        obtain ⟨other, taken, hOther, hMoved⟩ := wakes_of_reapProcess hAny
        refine (settles_taken_iff hRest hThere hAny hMoved rfl).mpr ?_
        exact hWork ▸ hAll other taken v.descriptors (hWakes ▸ hOther)
  · refine iff_of_false (not_settles_asleep hAt.reaper fun place socket hSocket hSleeping => ?_)
      fun hBoth => hSome hBoth.1
    by_contra hTake
    obtain ⟨taken, hTaken⟩ := Option.ne_none_iff_exists'.mp hTake
    exact hSome ⟨place, _, wakes_of_take hSocket hSleeping hTaken⟩

/-- A batch settles if what it establishes does, at the next `epoll_wait`. -/
theorem settlesAt_scanning (hWaiting : SettlesAt Func threadEventFd copies bound stop .waiting Q) :
    SettlesAt Func threadEventFd copies bound stop (.scanning events)
      (PendingWork.Handles stop Q events) := by
  induction events with
  | nil =>
      intro s hAt
      refine settles_iff_of_step hAt rfl fun u hThere hWork => ?_
      have hStep : u.reapProcess ⟨stop, .scanning []⟩ .test =
          some (u.moveReaper ⟨stop, .scanning []⟩ .waiting) := rfl
      exact ⟨_, hStep, hWork ▸ hWaiting.after hThere hStep rfl rfl⟩
  | cons event events ih =>
      intro s hAt
      refine settles_iff_of_step hAt rfl fun u hThere hWork => ?_
      rw [← hWork, PendingWork.Handles]
      by_cases hTest : event.fd = u.threadEventFd ∧ stop = true
      · refine ⟨u.moveReaper ⟨stop, .scanning (event :: events)⟩ .exited, if_pos hTest, ?_⟩
        exact iff_of_true (.exited rfl rfl) (.inl hTest)
      · have hStep : u.reapProcess ⟨stop, .scanning (event :: events)⟩ .test =
            some (u.moveReaper ⟨stop, .scanning (event :: events)⟩ (.reading event events)) := if_neg hTest
        refine ⟨_, hStep, ?_⟩
        rw [or_iff_right (show ¬(event.fd = (u.pendingWork copies).threadEventFd ∧ stop = true) from hTest)]
        exact (settlesAt_reading ih).after hThere hStep rfl rfl

/-- At `epoll_wait`, everything is up to the batches of the pending work. -/
theorem settles_waiting_iff (hAt : s.At threadEventFd stop .waiting)
    (hNext : SettlesAt Func threadEventFd copies (s.pendingWork copies).amount stop .waiting Q) :
    Settles copies bound s ↔
      (s.pendingWork copies).amount < bound ∧ (s.pendingWork copies).Batches stop Q := by
  have hBatch {u : Dispatcher Tid Func} {events : List EpollEvent} (hThere : u.At threadEventFd stop .waiting)
      (hWork : u.pendingWork copies = s.pendingWork copies)
      (hStep : u.reapProcess ⟨stop, .waiting⟩ (.epollWait events) =
        some (u.moveReaper ⟨stop, .waiting⟩ (.scanning events))) :
      Settles copies (u.pendingWork copies).amount (u.moveReaper ⟨stop, .waiting⟩ (.scanning events)) ↔
        PendingWork.Handles stop Q events (s.pendingWork copies) := by
    rw [hWork, (settlesAt_scanning hNext).after hThere hStep rfl rfl, ← hWork]
    rfl
  constructor
  · intro h
    cases h with
    | exited hReaper hPc | busy hReaper hPc =>
        rw [hAt.reaper] at hReaper
        cases hReaper
        simp at hPc
    | waiting hReaper hPc hLess hAll =>
        rw [hAt.reaper] at hReaper
        cases hReaper
        refine ⟨hLess, fun events hSome hReady => ?_⟩
        have hStep : s.reapProcess ⟨stop, .waiting⟩ (.epollWait events) =
            some (s.moveReaper ⟨stop, .waiting⟩ (.scanning events)) :=
          if_pos ⟨hSome, readyEvents_eq s ▸ hReady⟩
        exact (hBatch hAt rfl hStep).mp (hAll events _ hStep)
  · rintro ⟨hLess, hAll⟩
    refine hAt.settles fun u hThere hWork hOthers => ?_
    refine .waiting hThere.reaper rfl (hWork ▸ hLess) (fun events t hStep => ?_) hOthers
    cases hTaken : reapStep hStep with
    | epollWait hPc hSome hReady =>
        exact (hBatch hThere hWork hStep).mpr (hAll events hSome (hWork ▸ readyEvents_eq u ▸ hReady))

/-- Strong induction on the amount of pending work. -/
theorem settlesAt_waiting (amount : Nat) (hAt : s.At threadEventFd stop .waiting)
    (hAmount : (s.pendingWork copies).amount = amount) :
    Settles copies bound s ↔
      (s.pendingWork copies).amount < bound ∧ (s.pendingWork copies).Consumable stop := by
  induction amount using Nat.strongRecOn generalizing s bound with
  | ind amount ih =>
      have hNext : SettlesAt Func threadEventFd copies (s.pendingWork copies).amount stop .waiting
          ((s.pendingWork copies).Shrunk stop) := by
        intro t hThere
        rw [PendingWork.Shrunk]
        constructor
        · intro h
          have hLess : (t.pendingWork copies).amount < (s.pendingWork copies).amount := by
            cases h with
            | exited hReaper hPc | busy hReaper hPc =>
                rw [hThere.reaper] at hReaper
                cases hReaper
                simp at hPc
            | waiting _ _ hLess => exact hLess
          exact (ih _ (hAmount ▸ hLess) hThere rfl).mp h
        · rintro ⟨hLess, hConsumable⟩
          exact (ih _ (hAmount ▸ hLess) hThere rfl).mpr ⟨hLess, hConsumable⟩
      rw [settles_waiting_iff hAt hNext,
        PendingWork.batches_iff (wellBatched_of_reachable hAt.reachable).distinct]

end Places

/-- What the state must be like for a reaper at this place. Inside a batch it is asked of the
end of the batch, which the rest of the batch decides. -/
def Progresses (copies : Tid → Nat → Bool) (s : Dispatcher Tid Func) (reaper : Reaper) : Prop :=
  let w := s.pendingWork copies
  let done (events : List EpollEvent) : PendingWork → Prop :=
    PendingWork.Handles reaper.stopRequested (·.Consumable reaper.stopRequested) events
  match reaper.pc with
  | .exited => True
  | .waiting => w.Consumable reaper.stopRequested
  | .scanning events => done events w
  | .reading event events => w.Reads event (done events)
  | .asleep _ events => (∃ place taken, s.wakes place = some taken) ∧
    ∀ place result descriptors, s.wakes place = some (result, descriptors) →
      ({ w with descriptors } : PendingWork).Takes result (done events)
  | .holding _ frame events => w.Dispatchable frame ∧ done events w
  | .locked _ frame events => frame.canId.toNat < maxStdCanId ∧ done events w
  | .unlocking events => done events w
  | .fault _ => False

section Wherever

variable {threadEventFd : Fd} {copies : Tid → Nat → Bool} {s : Dispatcher Tid Func} {stop : Bool}
  {pc : ReaperPc}

omit [DecidableEq Tid] in
/-- What a sleeping read leaves is no more than there was. -/
theorem WellBatched.of_wakes {place : CanSocketPlace} {result : Option CanFrame} {descriptors : List CanSocket}
    (h : s.WellBatched) (hWakes : s.wakes place = some (result, descriptors)) :
    ({ s.pendingWork copies with descriptors } : PendingWork).amount ≤ (s.pendingWork copies).amount ∧
      ({ s.pendingWork copies with descriptors } : PendingWork).Distinct := by
  have hDistinct : (s.pendingWork copies).Distinct := h.distinct
  obtain ⟨socket, hSocket, hTaken⟩ := Option.bind_eq_some_iff.mp hWakes
  split_ifs at hTaken
  obtain ⟨⟨frame, rest⟩, hTake, hLeft⟩ := Option.map_eq_some_iff.mp hTaken
  obtain ⟨-, rfl⟩ := Prod.mk.inj hLeft
  by_cases hClosed : place = .closed
  · subst hClosed
    -- it was the descriptor of nothing any more
    have hSame : ({ s with sockets := s.sockets.woken .closed rest } : Dispatcher Tid Func).descriptors =
        s.descriptors := by
      simp [descriptors, CanSockets.woken, CanSockets.set_of_ne]
    rw [hSame]
    exact ⟨Nat.le_refl _, hDistinct⟩
  · have hFd : rest.fd = socket.fd := CanSocket.fd_of_take hTake
    have hLe : rest.amount ≤ socket.amount := CanSocket.amount_le_of_take hTake
    have hMem : socket ∈ (s.pendingWork copies).descriptors :=
      mem_descriptors.mpr (.inr ⟨place, hClosed, hSocket⟩)
    have hPut : ({ s with sockets := s.sockets.set place (some { rest with sleeping := false }) } :
        Dispatcher Tid Func).descriptors =
          ((s.pendingWork copies).put { rest with sleeping := false }).descriptors :=
      h.descriptors_set hClosed hSocket hFd
    rw [CanSockets.woken, if_neg hClosed, hPut]
    exact ⟨hDistinct.amount_put_le hMem hFd hLe, hDistinct.put _⟩

/-- Wherever the reaper is. -/
theorem settles_iff_progresses (hAt : s.At threadEventFd stop pc) :
    (∃ bound, Settles copies bound s) ↔ Progresses copies s ⟨stop, pc⟩ := by
  have hWell := wellBatched_of_reachable hAt.reachable
  have hDistinct : (s.pendingWork copies).Distinct := hWell.distinct
  have hWaiting (bound : Nat) : SettlesAt Func threadEventFd copies bound stop .waiting
      fun w => w.amount < bound ∧ w.Consumable stop :=
    fun _ hThere => settlesAt_waiting _ hThere rfl
  have hScanning (bound : Nat) (events : List EpollEvent) :
      SettlesAt Func threadEventFd copies bound stop (.scanning events)
        (PendingWork.Handles stop (fun w => w.amount < bound ∧ w.Consumable stop) events) :=
    settlesAt_scanning (hWaiting bound)
  cases pc with
  | exited => exact iff_of_true ⟨0, .exited hAt.reaper rfl⟩ trivial
  | fault events =>
      refine iff_of_false ?_ id
      rintro ⟨bound, h⟩
      exact not_settles_fault hAt.reaper h
  | waiting =>
      rw [exists_congr fun bound => hWaiting bound s hAt]
      exact PendingWork.exists_bound_iff (Q := fun w => w.Consumable stop)
        (T := fun Q => Q (s.pendingWork copies)) (fun _ _ hMono => hMono _) fun h => ⟨Nat.le_refl _, h⟩
  | scanning events =>
      rw [exists_congr fun bound => hScanning bound events s hAt]
      exact PendingWork.exists_bound_iff
        (T := fun Q => PendingWork.Handles stop Q events (s.pendingWork copies))
        (fun _ _ hMono h => h.mono hMono) fun h => h.bounded hDistinct (Nat.le_refl _)
  | reading event events =>
      rw [exists_congr fun bound => settlesAt_reading (hScanning bound events) s hAt]
      exact PendingWork.exists_bound_iff
        (T := fun Q => (s.pendingWork copies).Reads event (PendingWork.Handles stop Q events))
        (fun _ _ hMono h => h.mono fun _ hDone => hDone.mono hMono)
        fun h => (h.bounded hDistinct).mono fun _ hDone => hDone.2.bounded hDone.1.2 hDone.1.1
  | asleep fd events =>
      rw [exists_congr fun bound => settles_asleep_iff (hScanning bound events) hAt]
      refine PendingWork.exists_bound_iff (w := s.pendingWork copies)
        (T := fun Q => (∃ place taken, s.wakes place = some taken) ∧
          ∀ place result descriptors, s.wakes place = some (result, descriptors) →
            ({ s.pendingWork copies with descriptors } : PendingWork).Takes result
              (PendingWork.Handles stop Q events)) (fun _ _ hMono h => ⟨h.1, ?_⟩) fun h => ⟨h.1, ?_⟩
      · intro place result descriptors hWakes
        obtain ⟨hFrame, hDone⟩ := h.2 place result descriptors hWakes
        exact ⟨hFrame, hDone.mono hMono⟩
      · intro place result descriptors hWakes
        obtain ⟨hFrame, hDone⟩ := h.2 place result descriptors hWakes
        obtain ⟨hLe, hLater⟩ := hWell.of_wakes hWakes
        exact ⟨hFrame, hDone.bounded hLater hLe⟩
  | holding fd frame events =>
      rw [exists_congr fun bound => settlesAt_holding (hScanning bound events) s hAt]
      exact PendingWork.exists_bound_iff
        (T := fun Q => (s.pendingWork copies).Dispatchable frame ∧
          PendingWork.Handles stop Q events (s.pendingWork copies))
        (fun _ _ hMono h => ⟨h.1, h.2.mono hMono⟩)
        fun h => ⟨h.1, h.2.bounded hDistinct (Nat.le_refl _)⟩
  | locked fd frame events =>
      rw [exists_congr fun bound => settlesAt_locked (hScanning bound events) s hAt]
      exact PendingWork.exists_bound_iff
        (T := fun Q => frame.canId.toNat < maxStdCanId ∧
          PendingWork.Handles stop Q events (s.pendingWork copies))
        (fun _ _ hMono h => ⟨h.1, h.2.mono hMono⟩)
        fun h => ⟨h.1, h.2.bounded hDistinct (Nat.le_refl _)⟩
  | unlocking events =>
      rw [exists_congr fun bound => settlesAt_unlocking (hScanning bound events) s hAt]
      exact PendingWork.exists_bound_iff
        (T := fun Q => PendingWork.Handles stop Q events (s.pendingWork copies))
        (fun _ _ hMono h => h.mono hMono) fun h => h.bounded hDistinct (Nat.le_refl _)

end Wherever

/-- In every reachable state, the reaper settles exactly if what is pending can be
consumed: no error stands over an empty queue, every frame it would look up is in
the table, no read waits for a socket, and `lock_` is not left behind. -/
theorem reaper_settles_iff (copies : Tid → Nat → Bool) {threadEventFd : Fd} {s : Dispatcher Tid Func}
    {reaper : Reaper} (hReachable : (machine Tid Func).Reachable (init threadEventFd) s)
    (hReaper : s.reapThread = some reaper) :
    (∃ bound, Settles copies bound s) ↔ Progresses copies s reaper :=
  settles_iff_progresses ⟨hReachable, hReaper⟩

/-- A running reaper, and whatever the kernel then does to its socket. -/
def startedWith (actions : List (Action Unit Unit)) : List (Action Unit Unit) :=
  smoothStart 5 ++ actions

/-- With the link taken down and no frame queued, `EPOLLERR` is reported again and
again, and without `EPOLLIN` nothing reads the error away. -/
theorem reaper_spins_on_error :
    ∃ s, (machine Unit Unit).run (init 3) (startedWith [.kernel (.fail .current)]) = some s ∧
      s.readyEvents = [⟨5, false, true⟩] ∧ ∀ copies, ¬∃ bound, Settles copies bound s := by
  have hEnd : ((machine Unit Unit).run (init 3) (startedWith [.kernel (.fail .current)])).map
      (fun s => (s.reapThread, s.sockets .current, s.readyEvents)) =
        some (some ⟨false, .waiting⟩, some ⟨5, true, true, true, false, [], true⟩, [⟨5, false, true⟩]) := by
    decide +kernel
  obtain ⟨s, hRun, hView⟩ := Option.map_eq_some_iff.mp hEnd
  simp only [Prod.mk.injEq] at hView
  obtain ⟨hReaper, hSocket, hReady⟩ := hView
  refine ⟨s, hRun, hReady, fun copies => ?_⟩
  rw [settles_iff_progresses ⟨⟨_, hRun⟩, hReaper⟩]
  intro hProgresses
  have hMem := mem_descriptors.mpr (.inr ⟨.current, by decide, hSocket⟩)
  have hAll : ∀ socket ∈ s.descriptors, (s.pendingWork copies).CanConsume socket := hProgresses
  exact (hAll _ hMem rfl).1 rfl rfl

/-- A frame with identifier 1 is waiting to be read. -/
theorem reaper_settles_one_frame :
    ∃ s, (machine Unit Unit).run (init 3)
      (startedWith [.kernel (.arrive .current { CanFrame.zero with canId := 1 })]) = some s ∧
      ((∃ bound, Settles (fun _ _ => true) bound s) ↔ Progresses (fun _ _ => true) s ⟨false, .waiting⟩) := by
  have hEnd : ((machine Unit Unit).run (init 3)
      (startedWith [.kernel (.arrive .current { CanFrame.zero with canId := 1 })])).map (·.reapThread) =
        some (some ⟨false, .waiting⟩) := by decide +kernel
  obtain ⟨s, hRun, hReaper⟩ := Option.map_eq_some_iff.mp hEnd
  exact ⟨s, hRun, reaper_settles_iff _ ⟨_, hRun⟩ hReaper⟩

end Dispatcher
end HyCAN
