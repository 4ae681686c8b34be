import HyCAN.Interface.Dispatcher
import Mathlib.Algebra.Order.BigOperators.Group.List
import Mathlib.Algebra.Order.Ring.Nat

/-! What is pending at the reaper's descriptors, and what handling a batch of
events does to it. A batch is described by its weakest precondition, so that it
can end in three ways: the reaper returns, it goes back to `epoll_wait`, or it
gets stuck. -/
namespace HyCAN

namespace CanSocket

/-- The eventfd, read like a socket. Its value is the one frame that it has. -/
def eventfd (fd : Fd) (counter : Nat) : CanSocket :=
  ⟨fd, true, false, true, false, if counter = 0 then [] else [.ofCounter counter], false⟩

/-- The descriptor's share of the pending conditions, while it is in the epoll set. -/
def amount (socket : CanSocket) : Nat :=
  if socket.polled then socket.queue.length + socket.error.toNat else 0

/-- The event `epoll_wait` reports for a ready descriptor. -/
def event (socket : CanSocket) : EpollEvent :=
  ⟨socket.fd, decide (socket.queue ≠ []), socket.error⟩

/-- The frame and the descriptor that handling its event leaves. Only `EPOLLIN`
leads to a read. -/
def handle (socket : CanSocket) : Option CanFrame × CanSocket :=
  if socket.queue = [] then (none, socket) else socket.take.getD (none, socket)

/-- What a batch leaves. -/
def handled (socket : CanSocket) : CanSocket :=
  if socket.ready = [] then socket else socket.handle.2

@[simp] theorem eventfd_fd (fd : Fd) (counter : Nat) : (eventfd fd counter).fd = fd := rfl

theorem read_eventfd_zero (fd : Fd) : (eventfd fd 0).read = none := rfl

theorem read_eventfd {counter : Nat} (fd : Fd) (hCounter : counter ≠ 0) :
    (eventfd fd counter).read = some (some (.ofCounter counter), eventfd fd 0) := by
  refine read_of_take (take_of_queue rfl ?_)
  exact if_neg hCounter

section Handle

variable {socket rest : CanSocket} {frame : Option CanFrame}

theorem ready_ne_nil_iff : socket.ready ≠ [] ↔
    socket.polled = true ∧ (socket.queue ≠ [] ∨ socket.error = true) := by
  unfold ready
  split_ifs with h
  · exact iff_of_true (by simp) h
  · exact iff_of_false (by simp) h

theorem ready_of_ne_nil (hReady : socket.ready ≠ []) : socket.ready = [socket.event] :=
  if_pos (ready_ne_nil_iff.mp hReady)

theorem take_of_queue_ne_nil (hQueue : socket.queue ≠ []) : socket.take = some socket.handle := by
  cases hTake : socket.take with
  | none => exact absurd (take_eq_none_iff.mp hTake).2 hQueue
  | some taken => simp [handle, hQueue, hTake]

theorem handle_fd (socket : CanSocket) : socket.handle.2.fd = socket.fd := by
  by_cases hQueue : socket.queue = []
  · simp [handle, hQueue]
  · exact fd_of_take (take_of_queue_ne_nil hQueue)

theorem handled_fd (socket : CanSocket) : socket.handled.fd = socket.fd := by
  unfold handled
  split
  · rfl
  · exact socket.handle_fd

theorem amount_le_of_take (hTake : socket.take = some (frame, rest)) : rest.amount ≤ socket.amount := by
  unfold take at hTake
  split_ifs at hTake with hError
  · cases hTake
    simp only [amount]
    split <;> simp
  · cases hQueue : socket.queue with
    | nil => simp [hQueue] at hTake
    | cons head tail =>
        simp only [hQueue, Option.some.injEq, Prod.mk.injEq] at hTake
        obtain ⟨_, rfl⟩ := hTake
        simp only [amount, hQueue, List.length_cons]
        split <;> omega

theorem amount_le_of_read (hRead : socket.read = some (frame, rest)) : rest.amount ≤ socket.amount := by
  rcases read_cases hRead with hTake | ⟨_, _, rfl⟩
  · exact amount_le_of_take hTake
  · exact Nat.le_refl _

theorem amount_handled_le (socket : CanSocket) : socket.handled.amount ≤ socket.amount := by
  unfold handled
  split
  · exact Nat.le_refl _
  · by_cases hQueue : socket.queue = []
    · simp [handle, hQueue]
    · exact amount_le_of_take (take_of_queue_ne_nil hQueue)

/-- Only an error over an empty queue survives the handling of its event. -/
theorem amount_handled_lt (hReady : socket.ready ≠ []) (hQueue : socket.queue ≠ []) :
    socket.handled.amount < socket.amount := by
  have hPolled := (ready_ne_nil_iff.mp hReady).1
  have hTake := take_of_queue_ne_nil hQueue
  rw [handled, if_neg hReady]
  cases hError : socket.error with
  | true =>
      rw [take_of_error hError] at hTake
      rw [← Option.some.inj hTake]
      simp [amount, hPolled, hError]
  | false =>
      obtain ⟨frame, rest, hCons⟩ := List.exists_cons_of_ne_nil hQueue
      rw [take_of_queue hError hCons] at hTake
      rw [← Option.some.inj hTake]
      simp [amount, hPolled, hError, hCons]

end Handle

end CanSocket

structure PendingWork where
  threadEventFd : Fd
  /-- The descriptors that can be in the epoll set, with the eventfd among them. -/
  descriptors : List CanSocket
  /-- Whoever holds `lock_` gives it back, and so does everyone who gets it before the reaper. -/
  lockComes : Prop

namespace PendingWork

/-- The descriptors have numbers of their own. -/
def Distinct (w : PendingWork) : Prop :=
  (w.descriptors.map CanSocket.fd).Nodup

def amount (w : PendingWork) : Nat :=
  (w.descriptors.map CanSocket.amount).sum

def readyEvents (w : PendingWork) : List EpollEvent :=
  w.descriptors.flatMap CanSocket.ready

/-- The descriptor with the number of `rest` has become `rest`. -/
def put (w : PendingWork) (rest : CanSocket) : PendingWork :=
  { w with descriptors := w.descriptors.map fun socket => if socket.fd = rest.fd then rest else socket }

/-- Without a result the read blocks. -/
def read (w : PendingWork) (fd : Fd) : Option (Option CanFrame × PendingWork) :=
  match w.descriptors.find? (·.fd = fd) with
  -- EBADF
  | none => some (none, w)
  | some socket => socket.read.map fun (frame, rest) => (frame, w.put rest)

/-- The lookup for a frame neither waits forever nor leaves the table. -/
def Dispatchable (w : PendingWork) (frame : CanFrame) : Prop :=
  w.lockComes ∧ frame.canId.toNat < maxStdCanId

/-- Dispatching what a read has returned establishes `Q`. -/
def Takes (w : PendingWork) (frame : Option CanFrame) (Q : PendingWork → Prop) : Prop :=
  (∀ taken ∈ frame, w.Dispatchable taken) ∧ Q w

/-- Handling an event after its stop test establishes `Q`. -/
def Reads (w : PendingWork) (event : EpollEvent) (Q : PendingWork → Prop) : Prop :=
  if event.epollIn then ∃ frame v, w.read event.fd = some (frame, v) ∧ v.Takes frame Q else Q w

/-- The rest of a batch makes the reaper return, or else establishes `Q`. -/
def Handles (stop : Bool) (Q : PendingWork → Prop) : List EpollEvent → PendingWork → Prop
  | [], w => Q w
  | event :: events, w =>
    (event.fd = w.threadEventFd ∧ stop = true) ∨ w.Reads event (Handles stop Q events)

/-- The descriptor's error has a queue to be read with, and all of the queue goes
through the table. -/
def CanConsume (w : PendingWork) (socket : CanSocket) : Prop :=
  socket.polled = true →
    (socket.error = true → socket.queue ≠ []) ∧ ∀ frame ∈ socket.queue, w.Dispatchable frame

/-- The counter of the eventfd is not zero. -/
def Counted (w : PendingWork) : Prop :=
  ∃ socket ∈ w.descriptors, socket.fd = w.threadEventFd ∧ socket.ready ≠ []

instance (w : PendingWork) : Decidable w.Counted :=
  inferInstanceAs (Decidable (∃ socket ∈ w.descriptors, socket.fd = w.threadEventFd ∧ socket.ready ≠ []))

/-- Everything that is pending at `epoll_wait` can be consumed. With a stop requested and
counted, at most the first frame of each socket is dispatched before the return. -/
def Consumable (w : PendingWork) (stop : Bool) : Prop :=
  if stop = true ∧ w.Counted then
    ∀ socket ∈ w.descriptors, socket.fd ≠ w.threadEventFd → socket.ready ≠ [] →
      ∀ frame ∈ socket.handle.1, w.Dispatchable frame
  else ∀ socket ∈ w.descriptors, w.CanConsume socket

section Handling

variable {w : PendingWork} {stop : Bool} {Q R : PendingWork → Prop} {events : List EpollEvent}
  {socket rest : CanSocket}

@[simp] theorem put_threadEventFd (rest : CanSocket) : (w.put rest).threadEventFd = w.threadEventFd := rfl

@[simp] theorem dispatchable_put (rest : CanSocket) (frame : CanFrame) :
    (w.put rest).Dispatchable frame ↔ w.Dispatchable frame := Iff.rfl

theorem Distinct.eq_of_fd (h : w.Distinct) {other : CanSocket} (hMem : socket ∈ w.descriptors)
    (hOther : other ∈ w.descriptors) (hFd : socket.fd = other.fd) : socket = other :=
  List.inj_on_of_nodup_map h hMem hOther hFd

theorem Distinct.put (h : w.Distinct) (rest : CanSocket) : (w.put rest).Distinct := by
  have hFds : (w.put rest).descriptors.map CanSocket.fd = w.descriptors.map CanSocket.fd := by
    rw [PendingWork.put, List.map_map]
    refine List.map_congr_left fun socket _ => ?_
    by_cases hFd : socket.fd = rest.fd <;> simp [hFd]
  rw [Distinct, hFds]
  exact h

theorem Distinct.put_self (h : w.Distinct) (hMem : socket ∈ w.descriptors) : w.put socket = w := by
  have hSame : w.descriptors.map (fun other => if other.fd = socket.fd then socket else other) =
      w.descriptors := by
    conv_rhs => rw [← List.map_id w.descriptors]
    refine List.map_congr_left fun other hOther => ?_
    split
    · next hFd => exact (h.eq_of_fd hOther hMem hFd).symm
    · rfl
  rw [PendingWork.put, hSame]

/-- The number of a descriptor leads to it. -/
theorem Distinct.read (h : w.Distinct) (hMem : socket ∈ w.descriptors) :
    w.read socket.fd = socket.read.map fun (frame, rest) => (frame, w.put rest) := by
  have hFind : w.descriptors.find? (·.fd = socket.fd) = some socket := by
    cases hFound : w.descriptors.find? (·.fd = socket.fd) with
    | none => simpa using List.find?_eq_none.mp hFound socket hMem
    | some found =>
        have hFd : found.fd = socket.fd := by simpa using List.find?_some hFound
        rw [h.eq_of_fd (List.mem_of_find?_eq_some hFound) hMem hFd]
  rw [PendingWork.read, hFind]

/-- A read changes descriptors only. -/
theorem eq_of_read {fd : Fd} {frame : Option CanFrame} {v : PendingWork}
    (hRead : w.read fd = some (frame, v)) :
    v = { w with descriptors := v.descriptors } := by
  cases hFound : w.descriptors.find? (·.fd = fd) with
  | none =>
      simp only [PendingWork.read, hFound, Option.some.injEq, Prod.mk.injEq] at hRead
      rw [← hRead.2]
  | some socket =>
      simp only [PendingWork.read, hFound] at hRead
      obtain ⟨⟨_, rest⟩, _, hPut⟩ := Option.map_eq_some_iff.mp hRead
      obtain ⟨-, rfl⟩ := Prod.mk.inj hPut
      rfl

theorem Distinct.reads_iff {event : EpollEvent} (h : w.Distinct) (hIn : event.epollIn = true)
    (hMem : socket ∈ w.descriptors) (hFd : socket.fd = event.fd) :
    w.Reads event Q ↔ ∃ frame rest, socket.read = some (frame, rest) ∧ (w.put rest).Takes frame Q := by
  rw [Reads, if_pos hIn, ← hFd, h.read hMem]
  constructor
  · rintro ⟨frame, v, hRead, hTakes⟩
    obtain ⟨⟨_, rest⟩, hSocket, hPut⟩ := Option.map_eq_some_iff.mp hRead
    obtain ⟨rfl, rfl⟩ := Prod.mk.inj hPut
    exact ⟨_, rest, hSocket, hTakes⟩
  · rintro ⟨frame, rest, hSocket, hTakes⟩
    exact ⟨frame, _, by rw [hSocket]; rfl, hTakes⟩

theorem Reads.mono {event : EpollEvent} (hMono : ∀ v, Q v → R v) (h : w.Reads event Q) :
    w.Reads event R := by
  unfold Reads at h ⊢
  split_ifs at h ⊢
  · obtain ⟨frame, v, hRead, hFrame, hQ⟩ := h
    exact ⟨frame, v, hRead, hFrame, hMono v hQ⟩
  · exact hMono w h

theorem Handles.mono (hMono : ∀ v, Q v → R v) (h : Handles stop Q events w) :
    Handles stop R events w := by
  induction events generalizing w with
  | nil => exact hMono w h
  | cons event events ih =>
      rcases h with hReturn | hReads
      · exact .inl hReturn
      · exact .inr (hReads.mono fun v => ih)

/-- A descriptor that takes the place of another one has no more pending than that. -/
theorem Distinct.amount_put_le (h : w.Distinct) (hMem : socket ∈ w.descriptors) (hFd : rest.fd = socket.fd)
    (hLe : rest.amount ≤ socket.amount) : (w.put rest).amount ≤ w.amount := by
  rw [amount, amount, PendingWork.put, List.map_map]
  refine List.sum_le_sum fun other hOther => ?_
  show (if other.fd = rest.fd then rest else other).amount ≤ other.amount
  split
  · next hSame => exact h.eq_of_fd hOther hMem (hSame.trans hFd) ▸ hLe
  · exact Nat.le_refl _

/-- Reading never adds to what is pending. -/
theorem Distinct.of_read {fd : Fd} {frame : Option CanFrame} {v : PendingWork} (h : w.Distinct)
    (hRead : w.read fd = some (frame, v)) : v.amount ≤ w.amount ∧ v.Distinct := by
  cases hFound : w.descriptors.find? (·.fd = fd) with
  | none =>
      simp only [PendingWork.read, hFound, Option.some.injEq, Prod.mk.injEq] at hRead
      exact hRead.2 ▸ ⟨Nat.le_refl _, h⟩
  | some socket =>
      simp only [PendingWork.read, hFound] at hRead
      obtain ⟨⟨_, rest⟩, hSocket, hPut⟩ := Option.map_eq_some_iff.mp hRead
      obtain ⟨-, rfl⟩ := Prod.mk.inj hPut
      have hMem := List.mem_of_find?_eq_some hFound
      exact ⟨h.amount_put_le hMem (CanSocket.fd_of_read hSocket) (CanSocket.amount_le_of_read hSocket),
        h.put rest⟩

theorem Reads.bounded {event : EpollEvent} (hDistinct : w.Distinct) (h : w.Reads event Q) :
    w.Reads event fun v => (v.amount ≤ w.amount ∧ v.Distinct) ∧ Q v := by
  unfold Reads at h ⊢
  split_ifs at h ⊢
  · obtain ⟨frame, v, hRead, hFrame, hQ⟩ := h
    exact ⟨frame, v, hRead, hFrame, hDistinct.of_read hRead, hQ⟩
  · exact ⟨⟨Nat.le_refl _, hDistinct⟩, h⟩

/-- Along a batch the pending work never grows. -/
theorem Handles.bounded {v : PendingWork} (hDistinct : v.Distinct) (h : Handles stop Q events v)
    (hLe : v.amount ≤ w.amount) :
    Handles stop (fun u => u.amount ≤ w.amount ∧ Q u) events v := by
  induction events generalizing v with
  | nil => exact ⟨hLe, h⟩
  | cons event events ih =>
      rcases h with hReturn | hReads
      · exact .inl hReturn
      · exact .inr ((hReads.bounded hDistinct).mono fun u hu => ih hu.1.2 hu.2 (Nat.le_trans hu.1.1 hLe))

/-- A way to establish a property that never adds to the pending work can keep it
below a bound as well. -/
theorem exists_bound_iff {T : (PendingWork → Prop) → Prop}
    (hMono : ∀ Q R : PendingWork → Prop, (∀ v, Q v → R v) → T Q → T R)
    (hBounded : T Q → T fun v => v.amount ≤ w.amount ∧ Q v) :
    (∃ bound, T fun v => v.amount < bound ∧ Q v) ↔ T Q := by
  constructor
  · rintro ⟨bound, h⟩
    exact hMono _ _ (fun _ hv => hv.2) h
  · intro h
    exact ⟨w.amount + 1, hMono _ _ (fun _ hv => ⟨Nat.lt_succ_of_le hv.1, hv.2⟩) (hBounded h)⟩

end Handling

section Batch

variable {w : PendingWork} {stop : Bool} {Q : PendingWork → Prop} {ready : List CanSocket}
  {socket : CanSocket}

/-- The event of a descriptor that has one. -/
theorem reads_event_iff (hDistinct : w.Distinct) (hMem : socket ∈ w.descriptors) :
    w.Reads socket.event Q ↔
      (∀ frame ∈ socket.handle.1, w.Dispatchable frame) ∧ Q (w.put socket.handle.2) := by
  by_cases hQueue : socket.queue = []
  · simp [Reads, CanSocket.event, CanSocket.handle, hQueue, hDistinct.put_self hMem]
  · have hRead : socket.read = some socket.handle :=
      CanSocket.read_of_take (CanSocket.take_of_queue_ne_nil hQueue)
    rw [hDistinct.reads_iff (by simpa [CanSocket.event] using hQueue) hMem rfl, hRead]
    constructor
    · rintro ⟨frame, rest, hSame, hTakes⟩
      rw [Option.some.injEq] at hSame
      rw [hSame]
      exact hTakes
    · intro hTakes
      exact ⟨_, _, rfl, hTakes⟩

/-- Some of the descriptors, each with a number of its own. -/
structure Among (ready : List CanSocket) (w : PendingWork) : Prop where
  distinct : w.Distinct
  mem : ∀ socket ∈ ready, socket ∈ w.descriptors
  nodup : (ready.map CanSocket.fd).Nodup

/-- Handling the first one leaves the others as they are. -/
theorem Among.tail (h : Among (socket :: ready) w) : Among ready (w.put socket.handle.2) := by
  have hNodup := h.nodup
  rw [List.map_cons, List.nodup_cons] at hNodup
  refine ⟨h.distinct.put _, fun other hOther => ?_, hNodup.2⟩
  have hNe : other.fd ≠ socket.handle.2.fd := by
    rw [CanSocket.handle_fd]
    intro hSame
    exact hNodup.1 (hSame ▸ List.mem_map_of_mem hOther)
  exact List.mem_map.mpr ⟨other, h.mem other (by simp [hOther]), if_neg hNe⟩

/-- What handling the descriptors one by one leaves. -/
def putAll (w : PendingWork) (ready : List CanSocket) : PendingWork :=
  ready.foldl (fun v socket => v.put socket.handle.2) w

@[simp] theorem putAll_cons : w.putAll (socket :: ready) = (w.put socket.handle.2).putAll ready := rfl

/-- Without a return on the way a batch is handled to its end. -/
theorem handles_iff (hAmong : Among ready w)
    (hTest : ¬(stop = true ∧ ∃ socket ∈ ready, socket.fd = w.threadEventFd)) :
    Handles stop Q (ready.map CanSocket.event) w ↔
      (∀ socket ∈ ready, ∀ frame ∈ socket.handle.1, w.Dispatchable frame) ∧ Q (w.putAll ready) := by
  induction ready generalizing w with
  | nil => simp [Handles, putAll]
  | cons socket ready ih =>
      have hHead : ¬(socket.event.fd = w.threadEventFd ∧ stop = true) := fun hReturn =>
        hTest ⟨hReturn.2, socket, by simp, hReturn.1⟩
      have hTail : ¬(stop = true ∧ ∃ other ∈ ready, other.fd = (w.put socket.handle.2).threadEventFd) := by
        rintro ⟨hStop, other, hOther, hFd⟩
        exact hTest ⟨hStop, other, by simp [hOther], hFd⟩
      rw [List.map_cons, Handles, or_iff_right hHead,
        reads_event_iff hAmong.distinct (hAmong.mem socket (by simp)), ih hAmong.tail hTail]
      simp [and_assoc]

/-- A batch with the event of the eventfd makes a reaper that is to stop return. -/
theorem handles_of_return (hAmong : Among ready w) (hEvent : ∃ socket ∈ ready, socket.fd = w.threadEventFd)
    (hFrames : ∀ socket ∈ ready, socket.fd ≠ w.threadEventFd →
      ∀ frame ∈ socket.handle.1, w.Dispatchable frame) :
    Handles true Q (ready.map CanSocket.event) w := by
  induction ready generalizing w with
  | nil => simp at hEvent
  | cons socket ready ih =>
      by_cases hFd : socket.fd = w.threadEventFd
      · exact .inl ⟨hFd, rfl⟩
      · refine .inr ((reads_event_iff hAmong.distinct (hAmong.mem socket (by simp))).mpr ⟨?_, ?_⟩)
        · exact hFrames socket (by simp) hFd
        · refine ih hAmong.tail (by simpa [hFd] using hEvent) fun other hOther hNe => ?_
          exact hFrames other (by simp [hOther]) hNe

/-- The descriptors that are reported. -/
def reported (w : PendingWork) : List CanSocket :=
  w.descriptors.filter (·.ready ≠ [])

theorem readyEvents_eq (w : PendingWork) : w.readyEvents = w.reported.map CanSocket.event := by
  rw [readyEvents, reported]
  induction w.descriptors with
  | nil => rfl
  | cons socket sockets ih =>
      rw [List.flatMap_cons, ih]
      by_cases hReady : socket.ready = []
      · simp [hReady]
      · rw [List.filter_cons_of_pos (by simpa using hReady), CanSocket.ready_of_ne_nil hReady]
        rfl

theorem mem_reported : socket ∈ w.reported ↔ socket ∈ w.descriptors ∧ socket.ready ≠ [] := by
  simp [reported]

/-- The batches of the work `w`, in every order that `epoll_wait` may report. -/
def Batches (w : PendingWork) (stop : Bool) (Q : PendingWork → Prop) : Prop :=
  ∀ events, events ≠ [] → events.Perm w.readyEvents → Handles stop Q events w

theorem batches_iff_forall : w.Batches stop Q ↔
    ∀ ready : List CanSocket, ready ≠ [] → ready.Perm w.reported →
      Handles stop Q (ready.map CanSocket.event) w := by
  constructor
  · intro hAll ready hSome hPerm
    exact hAll _ (by simpa using hSome) (readyEvents_eq w ▸ hPerm.map _)
  · intro hAll events hSome hPerm
    rw [readyEvents_eq] at hPerm
    have hOrder : Relation.Comp (· = List.map CanSocket.event ·) List.Perm events w.reported := by
      rw [List.eq_map_comp_perm]
      exact hPerm
    obtain ⟨ready, rfl, hReady⟩ := hOrder
    exact hAll ready (by simpa using hSome) hReady

theorem among_of_perm (hDistinct : w.Distinct) (hPerm : ready.Perm w.reported) : Among ready w where
  distinct := hDistinct
  mem := fun _ hMem => (mem_reported.mp (hPerm.subset hMem)).1
  nodup := ((hPerm.map _).nodup_iff).mpr (hDistinct.sublist (List.filter_sublist.map _))

/-- In any order, the batch leaves the same. -/
theorem descriptors_putAll (hAmong : Among ready w) : (w.putAll ready).descriptors =
    w.descriptors.map fun socket =>
      if socket.fd ∈ ready.map CanSocket.fd then socket.handle.2 else socket := by
  induction ready generalizing w with
  | nil => simp [putAll]
  | cons first ready ih =>
      have hNodup := hAmong.nodup
      rw [List.map_cons, List.nodup_cons] at hNodup
      rw [putAll_cons, ih hAmong.tail, put, List.map_map]
      refine List.map_congr_left fun socket hMem => ?_
      by_cases hFd : socket.fd = first.fd
      · obtain rfl := hAmong.distinct.eq_of_fd hMem (hAmong.mem first (by simp)) hFd
        simp only [Function.comp_apply, CanSocket.handle_fd, ↓reduceIte, hNodup.1, List.map_cons,
          List.mem_cons, true_or]
      · simp only [Function.comp_apply, CanSocket.handle_fd, hFd, ↓reduceIte, List.map_cons, List.mem_cons,
          false_or]

theorem descriptors_of_perm (hDistinct : w.Distinct) (hPerm : ready.Perm w.reported) :
    (w.putAll ready).descriptors = w.descriptors.map CanSocket.handled := by
  rw [descriptors_putAll (among_of_perm hDistinct hPerm)]
  refine List.map_congr_left fun socket hMem => ?_
  have hReported : socket.fd ∈ ready.map CanSocket.fd ↔ socket.ready ≠ [] := by
    constructor
    · intro hFd
      obtain ⟨other, hOther, hSame⟩ := List.mem_map.mp hFd
      obtain ⟨hThere, hReady⟩ := mem_reported.mp (hPerm.subset hOther)
      exact hDistinct.eq_of_fd hThere hMem hSame ▸ hReady
    · intro hReady
      exact List.mem_map_of_mem (hPerm.symm.subset (mem_reported.mpr ⟨hMem, hReady⟩))
  by_cases hReady : socket.ready = [] <;> simp [hReported, hReady, CanSocket.handled]

/-- Whether a descriptor's work can be consumed is settled event by event. -/
theorem canConsume_iff : w.CanConsume socket ↔
    (socket.ready ≠ [] → ∀ frame ∈ socket.handle.1, w.Dispatchable frame) ∧ w.CanConsume socket.handled := by
  by_cases hReady : socket.ready = []
  · simp [hReady, CanSocket.handled]
  rw [CanSocket.handled, if_neg hReady]
  simp only [ne_eq, hReady, not_false_eq_true, forall_const]
  obtain ⟨hPolled, hSome⟩ := CanSocket.ready_ne_nil_iff.mp hReady
  by_cases hQueue : socket.queue = []
  · have hError : socket.error = true := hSome.resolve_left fun hNe => hNe hQueue
    simp [CanConsume, CanSocket.handle, hQueue, hPolled, hError]
  · have hTake := CanSocket.take_of_queue_ne_nil hQueue
    cases hError : socket.error with
    | true =>
        rw [CanSocket.take_of_error hError] at hTake
        rw [← Option.some.inj hTake]
        simp [CanConsume, hPolled, hQueue]
    | false =>
        obtain ⟨frame, rest, hCons⟩ := List.exists_cons_of_ne_nil hQueue
        rw [CanSocket.take_of_queue hError hCons] at hTake
        rw [← Option.some.inj hTake]
        simp [CanConsume, hPolled, hCons, hError]

/-- A descriptor that reports nothing has nothing to consume. -/
theorem canConsume_of_not_ready (hReady : socket.ready = []) : w.CanConsume socket := by
  intro hPolled
  have hIdle : socket.queue = [] ∧ socket.error = false := by
    simpa [CanSocket.ready, hPolled] using hReady
  simp [hIdle]

theorem CanConsume.queue_ne_nil (h : w.CanConsume socket) (hReady : socket.ready ≠ []) :
    socket.queue ≠ [] := by
  obtain ⟨hPolled, hSome⟩ := CanSocket.ready_ne_nil_iff.mp hReady
  exact hSome.elim id (h hPolled).1

/-- What is left to be consumed once a batch has reached its end. -/
def Shrunk (w : PendingWork) (stop : Bool) (v : PendingWork) : Prop :=
  v.amount < w.amount ∧ v.Consumable stop

/-- A stop that is requested and counted ends every batch; only events of sockets can
come before it. -/
theorem batches_iff_of_stop (hDistinct : w.Distinct) (hCounted : w.Counted) (hStop : stop = true) :
    w.Batches stop Q ↔ w.Consumable stop := by
  obtain ⟨event, hEvent, hFd, hReady⟩ := hCounted
  rw [Consumable, if_pos ⟨hStop, event, hEvent, hFd, hReady⟩, batches_iff_forall]
  constructor
  · intro hAll socket hMem hNe hSocket
    have hReported := mem_reported.mpr ⟨hMem, hSocket⟩
    -- the order in which this socket comes first
    have hHandles := hAll (socket :: w.reported.erase socket) (by simp) (List.perm_cons_erase hReported).symm
    have hReads := hHandles.resolve_left fun hReturn => hNe hReturn.1
    exact ((reads_event_iff hDistinct hMem).mp hReads).1
  · intro hFrames ready _ hPerm
    rw [hStop]
    refine handles_of_return (among_of_perm hDistinct hPerm) ?_ fun socket hMem hNe => ?_
    · exact ⟨event, hPerm.symm.subset (mem_reported.mpr ⟨hEvent, hReady⟩), hFd⟩
    · obtain ⟨hThere, hSocket⟩ := mem_reported.mp (hPerm.subset hMem)
      exact hFrames socket hThere hNe hSocket

/-- At the end of a batch, what it has left is consumable if all of it was, and vice versa. -/
theorem consumable_of_handled {v : PendingWork} (hReturn : ¬(stop = true ∧ w.Counted))
    (hFd : v.threadEventFd = w.threadEventFd) (hLock : v.lockComes = w.lockComes)
    (hLeft : v.descriptors = w.descriptors.map CanSocket.handled) :
    v.Consumable stop ↔ ∀ socket ∈ w.descriptors, w.CanConsume socket.handled := by
  have hLater : ¬(stop = true ∧ v.Counted) := by
    rintro ⟨hStop, handled, hMem, hEvent, hReady⟩
    obtain ⟨socket, hSocket, rfl⟩ := List.mem_map.mp (hLeft ▸ hMem)
    refine hReturn ⟨hStop, socket, hSocket, ?_, fun hNone => ?_⟩
    · rw [← CanSocket.handled_fd, hEvent, hFd]
    · rw [CanSocket.handled, if_pos hNone] at hReady
      exact hReady hNone
  rw [Consumable, if_neg hLater, hLeft, List.forall_mem_map]
  simp only [CanConsume, Dispatchable, hLock]

theorem putAll_frame (w : PendingWork) (ready : List CanSocket) :
    (w.putAll ready).threadEventFd = w.threadEventFd ∧ (w.putAll ready).lockComes = w.lockComes := by
  induction ready generalizing w with
  | nil => exact ⟨rfl, rfl⟩
  | cons socket ready ih => exact ih (w.put socket.handle.2)

/-- All batches of the pending work end with less of it, and with all of it still
consumable, exactly if it is consumable now. -/
theorem batches_iff (hDistinct : w.Distinct) :
    w.Batches stop (w.Shrunk stop) ↔ w.Consumable stop := by
  by_cases hReturn : stop = true ∧ w.Counted
  · exact batches_iff_of_stop hDistinct hReturn.2 hReturn.1
  have hBatch {ready : List CanSocket} (hPerm : ready.Perm w.reported) :
      Handles stop (w.Shrunk stop) (ready.map CanSocket.event) w ↔
        (∀ socket ∈ ready, ∀ frame ∈ socket.handle.1, w.Dispatchable frame) ∧
          (w.putAll ready).amount < w.amount ∧ ∀ socket ∈ w.descriptors, w.CanConsume socket.handled := by
    have hFrame := putAll_frame w ready
    have hTest : ¬(stop = true ∧ ∃ socket ∈ ready, socket.fd = w.threadEventFd) := by
      rintro ⟨hStop, socket, hMem, hFd⟩
      obtain ⟨hThere, hReady⟩ := mem_reported.mp (hPerm.subset hMem)
      exact hReturn ⟨hStop, socket, hThere, hFd, hReady⟩
    rw [handles_iff (among_of_perm hDistinct hPerm) hTest, Shrunk,
      consumable_of_handled hReturn hFrame.1 hFrame.2 (descriptors_of_perm hDistinct hPerm)]
  rw [batches_iff_forall, Consumable, if_neg hReturn]
  constructor
  · intro hAll socket hMem
    by_cases hReady : socket.ready = []
    · exact canConsume_of_not_ready hReady
    · have hReported := mem_reported.mpr ⟨hMem, hReady⟩
      have hHandles := hAll w.reported (List.ne_nil_of_mem hReported) (List.Perm.refl _)
      obtain ⟨hFrames, _, hRest⟩ := (hBatch (List.Perm.refl _)).mp hHandles
      exact canConsume_iff.mpr ⟨fun _ => hFrames socket hReported, hRest socket hMem⟩
  · intro hConsume ready hSome hPerm
    refine (hBatch hPerm).mpr ⟨fun socket hMem => ?_, ?_, fun socket hMem => ?_⟩
    · obtain ⟨hThere, hReady⟩ := mem_reported.mp (hPerm.subset hMem)
      exact (canConsume_iff.mp (hConsume socket hThere)).1 hReady
    · obtain ⟨first, hFirst⟩ := List.exists_mem_of_ne_nil ready hSome
      obtain ⟨hThere, hReady⟩ := mem_reported.mp (hPerm.subset hFirst)
      have hQueue := (hConsume first hThere).queue_ne_nil hReady
      rw [amount, amount, descriptors_of_perm hDistinct hPerm, List.map_map]
      exact List.sum_lt_sum _ _ (fun socket _ => socket.amount_handled_le)
        ⟨first, hThere, CanSocket.amount_handled_lt hReady hQueue⟩
    · exact (canConsume_iff.mp (hConsume socket hMem)).2

end Batch

end PendingWork
end HyCAN
