import HyCAN.Interface.CanFrame
import Mathlib.Logic.Function.Basic

/-! The `CAN_RAW` sockets of a dispatcher, as the kernel has them. `sock_fd` names one, and
there can be others: descriptor 0 is never closed by `ensure_connected`, and a socket that
is closed lasts as long as a read that sleeps in it. -/
namespace HyCAN

abbrev Fd := Nat

/-- One element of the array `epoll_wait` fills: its descriptor, and whether
`EPOLLIN` and `EPOLLERR` are among its event bits. -/
structure EpollEvent where
  fd : Fd
  epollIn : Bool
  epollErr : Bool
  deriving DecidableEq

/-- The kernel's side of a `CAN_RAW` socket of the dispatcher. -/
structure CanSocket where
  fd : Fd
  bound : Bool
  nonblocking : Bool
  polled : Bool
  /-- A read of the reaper sleeps in it. -/
  sleeping : Bool
  queue : List CanFrame
  error : Bool
  deriving DecidableEq

namespace CanSocket

/-- A new socket is blocking. -/
def opened (fd : Fd) : CanSocket := ⟨fd, false, false, false, false, [], false⟩

/-- What is there for a read. A pending error is reported first and thereby cleared. -/
def take (socket : CanSocket) : Option (Option CanFrame × CanSocket) :=
  if socket.error then some (none, { socket with error := false })
  else match socket.queue with
    | [] => none
    | frame :: rest => some (some frame, { socket with queue := rest })

/-- A read that finds nothing fails with `EAGAIN`, or sleeps. -/
def read (socket : CanSocket) : Option (Option CanFrame × CanSocket) :=
  socket.take.or (if socket.nonblocking then some (none, socket) else none)

/-- Level-triggered readiness; `EPOLLERR` needs no subscription. -/
def ready (socket : CanSocket) : List EpollEvent :=
  if socket.polled ∧ (socket.queue ≠ [] ∨ socket.error) then
    [⟨socket.fd, decide (socket.queue ≠ []), socket.error⟩]
  else []

section Read

variable {socket rest : CanSocket} {frame : Option CanFrame}

theorem take_of_error (hError : socket.error = true) :
    socket.take = some (none, { socket with error := false }) := by
  simp [take, hError]

theorem take_of_queue {frame : CanFrame} {rest : List CanFrame} (hError : socket.error = false)
    (hQueue : socket.queue = frame :: rest) :
    socket.take = some (some frame, { socket with queue := rest }) := by
  simp [take, hError, hQueue]

theorem take_eq_none_iff : socket.take = none ↔ socket.error = false ∧ socket.queue = [] := by
  unfold take
  split_ifs with hError
  · simp [hError]
  · cases hQueue : socket.queue <;> simp [hError]

theorem read_of_take (hTake : socket.take = some (frame, rest)) : socket.read = some (frame, rest) := by
  simp [read, hTake]

theorem take_of_read_none (hRead : socket.read = none) : socket.take = none := by
  cases hTake : socket.take with
  | none => rfl
  | some taken => simp [read, hTake] at hRead

/-- A read either has something to take, or leaves the socket alone. -/
theorem read_cases (hRead : socket.read = some (frame, rest)) :
    socket.take = some (frame, rest) ∨ socket.take = none ∧ frame = none ∧ rest = socket := by
  cases hTake : socket.take with
  | some taken =>
      rw [read, hTake, Option.some_or] at hRead
      exact .inl hRead
  | none =>
      rw [read, hTake, Option.none_or] at hRead
      split_ifs at hRead
      cases hRead
      exact .inr ⟨rfl, rfl, rfl⟩

theorem read_of_nonblocking (hNonblocking : socket.nonblocking = true) :
    ∃ frame rest, socket.read = some (frame, rest) := by
  cases hTake : socket.take with
  | some taken => exact ⟨_, _, read_of_take hTake⟩
  | none => exact ⟨none, socket, by simp [read, hTake, hNonblocking]⟩

/-- Taking changes only the queue and the error. -/
theorem eq_of_take (hTake : socket.take = some (frame, rest)) :
    rest = { socket with queue := rest.queue, error := rest.error } ∧
      frame.toList ++ rest.queue = socket.queue := by
  unfold take at hTake
  split_ifs at hTake
  · cases hTake
    exact ⟨rfl, rfl⟩
  · cases hQueue : socket.queue with
    | nil => simp [hQueue] at hTake
    | cons head tail =>
        simp only [hQueue, Option.some.injEq, Prod.mk.injEq] at hTake
        obtain ⟨rfl, rfl⟩ := hTake
        exact ⟨rfl, rfl⟩

theorem eq_of_read (hRead : socket.read = some (frame, rest)) :
    rest = { socket with queue := rest.queue, error := rest.error } ∧
      frame.toList ++ rest.queue = socket.queue := by
  rcases read_cases hRead with hTake | ⟨_, rfl, rfl⟩
  · exact eq_of_take hTake
  · exact ⟨rfl, rfl⟩

theorem fd_of_take (hTake : socket.take = some (frame, rest)) : rest.fd = socket.fd := by
  rw [(eq_of_take hTake).1]

theorem fd_of_read (hRead : socket.read = some (frame, rest)) : rest.fd = socket.fd := by
  rw [(eq_of_read hRead).1]

theorem fd_of_mem_ready {event : EpollEvent} (hMem : event ∈ socket.ready) : event.fd = socket.fd := by
  unfold ready at hMem
  split at hMem
  · rw [List.mem_singleton.mp hMem]
  · simp at hMem

end Read

end CanSocket

inductive CanSocketPlace where
  /-- `sock_fd` -/
  | current
  /-- Descriptor 0, which nothing names any more and nothing has closed. -/
  | leftover
  /-- No descriptor any more; only the read that sleeps in it has it. -/
  | closed
  deriving DecidableEq

abbrev CanSockets := CanSocketPlace → Option CanSocket

namespace CanSockets

def set (sockets : CanSockets) (place : CanSocketPlace) (socket : Option CanSocket) : CanSockets :=
  Function.update sockets place socket

def modify (sockets : CanSockets) (change : CanSocket → CanSocket) : CanSockets :=
  sockets.set .current ((sockets .current).map change)

def move (sockets : CanSockets) (place : CanSocketPlace) : CanSockets :=
  (sockets.set place (sockets .current)).set .current none

/-- `close(sock_fd)` -/
def close (sockets : CanSockets) : CanSockets :=
  match sockets .current with
  | none => sockets
  | some socket => if socket.sleeping then sockets.move .closed else sockets.set .current none

/-- `ensure_connected` gives `sock_fd` a new value, and closes the old one if it is
above 0. -/
def release (sockets : CanSockets) : CanSockets :=
  match sockets .current with
  | none => sockets
  | some socket => if 0 < socket.fd then sockets.close else sockets.move .leftover

/-- The read that has slept in a socket returns, and a closed socket goes with it. -/
def woken (sockets : CanSockets) (place : CanSocketPlace) (rest : CanSocket) : CanSockets :=
  sockets.set place (if place = .closed then none else some { rest with sleeping := false })

/-- The open socket of that number. -/
def placeOf (sockets : CanSockets) (fd : Fd) : Option CanSocketPlace :=
  [CanSocketPlace.current, CanSocketPlace.leftover].find? fun place =>
    (sockets place).any fun socket => socket.fd = fd

section Places

variable {sockets after : CanSockets} {place other : CanSocketPlace} {socket rest : CanSocket}
  {fd threadEventFd : Fd}

@[simp] theorem set_self (new : Option CanSocket) : sockets.set place new place = new :=
  Function.update_self ..

theorem set_of_ne (new : Option CanSocket) (hNe : other ≠ place) :
    sockets.set place new other = sockets other :=
  Function.update_of_ne hNe ..

theorem place_of_placeOf (h : sockets.placeOf fd = some place) :
    place ≠ .closed ∧ ∃ socket, sockets place = some socket ∧ socket.fd = fd := by
  have hAny := List.find?_some h
  have hMem := List.mem_of_find?_eq_some h
  rw [Option.any_eq_true] at hAny
  obtain ⟨socket, hSocket, hFd⟩ := hAny
  refine ⟨?_, socket, hSocket, of_decide_eq_true hFd⟩
  rintro rfl
  simp at hMem

theorem ne_of_placeOf_eq_none (h : sockets.placeOf fd = none) (hOpen : place ≠ .closed)
    (hSocket : sockets place = some socket) : socket.fd ≠ fd := by
  have hNone := List.find?_eq_none.mp h place
  cases place with
  | current | leftover => simpa [hSocket] using hNone
  | closed => exact absurd rfl hOpen

/-- All sockets have the property. -/
def All (P : CanSocket → Prop) (sockets : CanSockets) : Prop :=
  ∀ place socket, sockets place = some socket → P socket

section All

variable {P : CanSocket → Prop}

theorem All.set {new : Option CanSocket} (h : sockets.All P) (hNew : ∀ socket, new = some socket → P socket) :
    (sockets.set place new).All P := by
  intro other socket hSocket
  by_cases hSame : other = place
  · rw [hSame, set_self] at hSocket
    exact hNew socket hSocket
  · rw [set_of_ne _ hSame] at hSocket
    exact h other socket hSocket

theorem All.modify {change : CanSocket → CanSocket} (h : sockets.All P)
    (hChange : ∀ socket, P socket → P (change socket)) : (sockets.modify change).All P := by
  refine h.set fun changed hChanged => ?_
  obtain ⟨socket, hSocket, rfl⟩ := Option.map_eq_some_iff.mp hChanged
  exact hChange socket (h .current socket hSocket)

theorem All.move (h : sockets.All P) : (sockets.move place).All P :=
  (h.set (h .current)).set (by simp)

theorem All.close (h : sockets.All P) : sockets.close.All P := by
  unfold CanSockets.close
  split
  · exact h
  · split
    · exact h.move
    · exact h.set (by simp)

theorem All.release (h : sockets.All P) : sockets.release.All P := by
  unfold CanSockets.release
  split
  · exact h
  · split
    · exact h.close
    · exact h.move

theorem All.woken (h : sockets.All P) (hRest : P { rest with sleeping := false }) :
    (sockets.woken place rest).All P := by
  refine h.set fun socket hSocket => ?_
  split_ifs at hSocket
  cases hSocket
  exact hRest

end All

/-- `sock_fd` has no socket any more. -/
theorem release_current : sockets.release .current = none := by
  have hMove (place : CanSocketPlace) : sockets.move place .current = none := set_self none
  cases hSocket : sockets .current with
  | none => simp [release, hSocket]
  | some socket =>
      unfold release close
      simp only [hSocket]
      split_ifs
      · exact hMove .closed
      · exact set_self none
      · exact hMove .leftover

theorem close_current : sockets.close .current = none := by
  cases hSocket : sockets .current with
  | none => simp [close, hSocket]
  | some socket =>
      unfold close
      simp only [hSocket]
      split_ifs <;> exact set_self none

/-- `close` leaves descriptor 0 as it is. -/
theorem leftover_of_close (hOpen : place ≠ .closed) (h : sockets.close place = some socket) :
    place = .leftover ∧ sockets .leftover = some socket := by
  have hPlace : place = .leftover := by
    cases place with
    | current =>
        rw [close_current] at h
        cases h
    | leftover => rfl
    | closed => exact absurd rfl hOpen
  subst hPlace
  refine ⟨rfl, ?_⟩
  cases hSocket : sockets .current with
  | none => simpa only [close, hSocket] using h
  | some current =>
      simp only [close, hSocket] at h
      split_ifs at h
      · rwa [move, set_of_ne _ (by decide), set_of_ne _ (by decide)] at h
      · rwa [set_of_ne _ (by decide)] at h

/-- Only descriptor 0 can be left, with the socket that it had or that of `sock_fd`. -/
theorem leftover_of_release (hOpen : place ≠ .closed) (h : sockets.release place = some socket) :
    place = .leftover ∧ ∃ before, before ≠ .closed ∧ sockets before = some socket := by
  have hPlace : place = .leftover := by
    cases place with
    | current =>
        rw [release_current] at h
        cases h
    | leftover => rfl
    | closed => exact absurd rfl hOpen
  subst hPlace
  refine ⟨rfl, ?_⟩
  cases hSocket : sockets .current with
  | none => exact ⟨.leftover, by decide, by simpa only [release, hSocket] using h⟩
  | some current =>
      simp only [release, hSocket] at h
      split_ifs at h
      · exact ⟨.leftover, by decide, (leftover_of_close (by decide) h).2⟩
      · rw [move, set_of_ne _ (by decide), set_self] at h
        exact ⟨.current, by decide, h⟩

/-- No socket has the number of the eventfd, and no two have the same. -/
structure Numbered (threadEventFd : Fd) (sockets : CanSockets) : Prop where
  event : sockets.All (·.fd ≠ threadEventFd)
  distinct : ∀ first second, sockets .current = some first → sockets .leftover = some second →
    first.fd ≠ second.fd

theorem numbered_none : Numbered threadEventFd fun _ => none := by
  constructor
  · intro _ _ hSocket
    cases hSocket
  · intro _ _ hFirst
    cases hFirst

theorem Numbered.of_current_none (h : sockets.All (·.fd ≠ threadEventFd)) (hNone : sockets .current = none) :
    sockets.Numbered threadEventFd := by
  refine ⟨h, fun first _ hFirst => ?_⟩
  rw [hNone] at hFirst
  cases hFirst

/-- A place keeps its socket's number, or is cleared. -/
theorem Numbered.set {new : Option CanSocket} (h : sockets.Numbered threadEventFd)
    (hNew : ∀ socket, new = some socket → ∃ old, sockets place = some old ∧ socket.fd = old.fd) :
    (sockets.set place new).Numbered threadEventFd := by
  refine ⟨h.event.set fun socket hSocket => ?_, fun first second hFirst hSecond => ?_⟩
  · obtain ⟨old, hOld, hFd⟩ := hNew socket hSocket
    exact hFd ▸ h.event place old hOld
  · have hSame (other : CanSocketPlace) (socket : CanSocket)
        (hSocket : sockets.set place new other = some socket) :
        ∃ old, sockets other = some old ∧ socket.fd = old.fd := by
      by_cases hPlace : other = place
      · subst hPlace
        exact hNew socket (by rwa [set_self] at hSocket)
      · exact ⟨socket, by rwa [set_of_ne _ hPlace] at hSocket, rfl⟩
    obtain ⟨old, hOld, hFd⟩ := hSame .current first hFirst
    obtain ⟨other, hOther, hOtherFd⟩ := hSame .leftover second hSecond
    rw [hFd, hOtherFd]
    exact h.distinct old other hOld hOther

theorem Numbered.modify {change : CanSocket → CanSocket} (h : sockets.Numbered threadEventFd)
    (hChange : ∀ socket, (change socket).fd = socket.fd) :
    (sockets.modify change).Numbered threadEventFd := by
  refine h.set fun changed hChanged => ?_
  obtain ⟨socket, hSocket, rfl⟩ := Option.map_eq_some_iff.mp hChanged
  exact ⟨socket, hSocket, hChange socket⟩

theorem Numbered.release (h : sockets.Numbered threadEventFd) : sockets.release.Numbered threadEventFd :=
  .of_current_none h.event.release release_current

theorem Numbered.close (h : sockets.Numbered threadEventFd) : sockets.close.Numbered threadEventFd :=
  .of_current_none h.event.close close_current

theorem Numbered.open (h : sockets.Numbered threadEventFd) (hEvent : fd ≠ threadEventFd)
    (hLeftover : (sockets .leftover).any (·.fd = fd) = false) :
    (sockets.set .current (some (.opened fd))).Numbered threadEventFd := by
  refine ⟨h.event.set fun socket hSocket => ?_, fun first second hFirst hSecond => ?_⟩
  · cases hSocket
    exact hEvent
  · rw [set_self] at hFirst
    cases hFirst
    rw [set_of_ne _ (by decide)] at hSecond
    intro hSame
    simp [hSecond, ← hSame, CanSocket.opened] at hLeftover

theorem Numbered.woken {frame : Option CanFrame} (h : sockets.Numbered threadEventFd)
    (hSocket : sockets place = some socket) (hTake : socket.take = some (frame, rest)) :
    (sockets.woken place rest).Numbered threadEventFd := by
  refine h.set fun woken hWoken => ?_
  split_ifs at hWoken
  cases hWoken
  have hFd := CanSocket.fd_of_take hTake
  exact ⟨socket, hSocket, hFd⟩

/-- The number leads to its socket. -/
theorem Numbered.placeOf (h : sockets.Numbered threadEventFd) (hOpen : place ≠ .closed)
    (hSocket : sockets place = some socket) : sockets.placeOf socket.fd = some place := by
  cases place with
  | closed => exact absurd rfl hOpen
  | current => simp [CanSockets.placeOf, hSocket]
  | leftover =>
      cases hCurrent : sockets .current with
      | none => simp [CanSockets.placeOf, hSocket, hCurrent]
      | some first =>
          have hNe := h.distinct first socket hCurrent hSocket
          simp [CanSockets.placeOf, hSocket, hCurrent, hNe]

end Places

end CanSockets
end HyCAN
