import HyCAN.Interface.CanFrame
import HyCAN.Interface.SocketOwnership

/-! `Sender::send` with the frames it writes, for a kernel whose calls may succeed or
fail at every step. A write on a CAN socket is all or nothing. -/
namespace HyCAN

open Ownership Transition

universe u

/-- A `write` that succeeded, and whether the descriptor was the sender's own socket. -/
structure FrameWrite where
  fd : Nat
  frame : CanFrame
  ownSocket : Bool

/-- A call of `send` that has returned. -/
structure SendCall (Frame : Type u) where
  frame : Frame
  result : Except Error Unit

/-- What a call puts on a socket if its result is the truth. -/
def SendCall.delivered {Frame : Type u} (toCanFrame : Frame → CanFrame) (call : SendCall Frame) :
    List CanFrame :=
  match call.result with
  | .ok () => [toCanFrame call.frame]
  | .error _ => []

/-- A `Sender`, whose socket is the object 0, with its past. -/
structure Sender (Frame : Type u) where
  sockets : SocketObjects
  writes : List FrameWrite
  calls : List (SendCall Frame)

namespace Sender

variable {Frame : Type u}

/-- `Sender(interface_name)`, in an application with some descriptors in use. -/
def start (application : Nat → Bool) (interfaceName : List UInt8) : Sender Frame where
  sockets := { SocketObjects.start application with
    objects := Function.update (fun _ => none) 0 (some ⟨.sender, ⟨0, interfaceName⟩⟩) }
  writes := []
  calls := []

def frames (s : Sender Frame) : List CanFrame :=
  s.writes.map (·.frame)

def getSockFd (s : Sender Frame) : Option Int :=
  (s.sockets.objects 0).map (·.socket.sockFd)

/-- `socket.ensure_connected()` -/
def ensureConnected (s : Sender Frame) (outcome : ConnectOutcome) :
    Option (Except Error Unit × Sender Frame) :=
  match s.sockets.objects 0 with
  | none => none
  | some object => (s.sockets.ensureConnected 0 object outcome).map fun connected =>
      (connected.1, { s with sockets := connected.2 })

/-- `do_write(socket.get_sock_fd())` where it succeeds, which it cannot on a number
that is not in use. -/
def doWrite (s : Sender Frame) (frame : CanFrame) : Option (Sender Frame) :=
  match s.getSockFd with
  | some (.ofNat fd) =>
    if s.sockets.ledger.openings fd = none then none
    else some { s with writes := s.writes ++ [⟨fd, frame, s.sockets.ledger.owns 0 fd⟩] }
  | _ => none

variable (toCanFrame : Frame → CanFrame)

/-- `send` from its first `write` on. Each write makes its own `can_frame`. -/
def sendFrame (s : Sender Frame) (frame : Frame) (faults : SocketObjects.SendFaults) :
    Option (Except Error Unit × Sender Frame) :=
  match faults.write with
  | none => (s.doWrite (toCanFrame frame)).map fun s => (.ok (), s)
  | some error =>
    if error.isFatal then
      match s.ensureConnected faults.reconnect with
      | none => none
      | some (.error error, s) => some (.error error, s)
      | some (.ok (), s) =>
        match faults.rewrite with
        | none => (s.doWrite (toCanFrame frame)).map fun s => (.ok (), s)
        | some error => some (error.result, s)
    else some (error.result, s)

def send (s : Sender Frame) (frame : Frame) (faults : SocketObjects.SendFaults) :
    Option (Except Error Unit × Sender Frame) :=
  match s.getSockFd with
  | none => none
  | some fd =>
    if fd ≤ 0 then
      match s.ensureConnected faults.connect with
      | none => none
      | some (.error error, s) => some (.error error, s)
      | some (.ok (), s) => s.sendFrame toCanFrame frame faults
    else s.sendFrame toCanFrame frame faults

inductive Action (Frame : Type u) where
  | send (frame : Frame) (faults : SocketObjects.SendFaults)
  /-- The application opens and closes descriptors of its own. -/
  | openForeign (fd : Nat)
  | closeForeign (fd : Nat)

def step (s : Sender Frame) : Action Frame → Option (Sender Frame)
  | .send frame faults =>
    (s.send toCanFrame frame faults).map fun returned =>
      { returned.2 with calls := returned.2.calls ++ [⟨frame, returned.1⟩] }
  | .openForeign fd =>
    (s.sockets.step (.openForeign fd)).map fun sockets => { s with sockets := sockets }
  | .closeForeign fd =>
    (s.sockets.step (.closeForeign fd)).map fun sockets => { s with sockets := sockets }

def machine : Machine (Sender Frame) (Action Frame) := ⟨step toCanFrame⟩

/-- The descriptors are as `Socket` leaves them without moves and destructors, and every
write so far went to the sender's own socket. -/
structure Owned (s : Sender Frame) : Prop where
  tracked : s.sockets.Tracked
  rightful : s.sockets.Rightful
  present : ∃ object, s.sockets.objects 0 = some object
  own : ∀ write ∈ s.writes, write.ownSocket = true

/-- The number that `get_sock_fd` returns came from `socket`. -/
def Connected (s : Sender Frame) : Prop :=
  ∃ fd serial, s.getSockFd = some (Int.ofNat fd) ∧ s.sockets.ledger.held 0 = some (fd, serial)

/-- A part of a call that puts these frames on the socket. -/
structure Adds (s : Sender Frame) (frames : List CanFrame) (t : Sender Frame) : Prop where
  owned : t.Owned
  frames : t.frames = s.frames ++ frames
  calls : t.calls = s.calls

section Parts

variable {s t u : Sender Frame} {outcome : ConnectOutcome} {result : Except Error Unit}

theorem Adds.trans {before after : List CanFrame} (h : s.Adds before t) (hNext : t.Adds after u) :
    s.Adds (before ++ after) u where
  owned := hNext.owned
  frames := by rw [hNext.frames, h.frames, List.append_assoc]
  calls := hNext.calls.trans h.calls

theorem Owned.adds_nil (h : s.Owned) : s.Adds [] s :=
  ⟨h, (List.append_nil _).symm, rfl⟩

theorem ensureConnected_eq_some : s.ensureConnected outcome = some (result, t) ↔
    ∃ object sockets, s.sockets.objects 0 = some object ∧
      s.sockets.ensureConnected 0 object outcome = some (result, sockets) ∧
        { s with sockets := sockets } = t := by
  unfold ensureConnected
  cases s.sockets.objects 0 with
  | none => simp
  | some object => simp

/-- Whatever `ensure_connected` does to the socket, the object stays. -/
theorem objects_ensureConnected {sockets connected : SocketObjects} {object : SocketObject}
    (h : sockets.ensureConnected 0 object outcome = some (result, connected)) :
    ∃ after, connected.objects 0 = some after := by
  rcases SocketObjects.ensureConnected_cases h with rfl | ⟨fd, _, rfl | rfl⟩
  · exact ⟨_, SocketObjects.setFd_objects_self _ 0 object (-1)⟩
  · exact ⟨_, SocketObjects.setFd_objects_self _ 0 object (-1)⟩
  · exact ⟨_, SocketObjects.setFd_objects_self (sockets.disconnect 0 object) 0 object fd⟩

theorem Owned.ensureConnected (h : s.Owned)
    (hConnect : s.ensureConnected outcome = some (result, t)) : s.Adds [] t := by
  obtain ⟨object, sockets, hObject, hSockets, rfl⟩ := ensureConnected_eq_some.mp hConnect
  have hOwned : Owned { s with sockets := sockets } :=
    ⟨(h.tracked.ensureConnected hObject hSockets).1,
      SocketObjects.rightful_ensureConnected h.tracked hObject hSockets h.rightful,
      objects_ensureConnected hSockets, h.own⟩
  exact ⟨hOwned, (List.append_nil _).symm, rfl⟩

/-- A connection that succeeds leaves a fresh descriptor, whatever was there before. -/
theorem connected_of_ok (hConnect : s.ensureConnected outcome = some (.ok (), t)) :
    t.Connected := by
  obtain ⟨object, sockets, _, hSockets, rfl⟩ := ensureConnected_eq_some.mp hConnect
  have hResult := SocketObjects.ensureConnected_result hSockets
  unfold SocketObjects.ensureConnected at hSockets
  cases outcome with
  | socketFails errno | indexFails fd errno | bindFails fd errno =>
      simp [ConnectOutcome.result] at hResult
  | connected fd =>
      simp only at hSockets
      split_ifs at hSockets
      obtain ⟨_, rfl⟩ := Prod.mk.inj (Option.some.inj hSockets)
      refine ⟨fd, _, ?_, SocketObjects.held_obtain _ 0 object fd⟩
      have hObject := SocketObjects.setFd_objects_self (s.sockets.disconnect 0 object) 0 object fd
      simp [getSockFd, SocketObjects.obtain, hObject]

theorem Owned.connected (h : s.Owned) {fd : Int} (hFd : s.getSockFd = some fd) (hPos : 0 < fd) :
    s.Connected := by
  obtain ⟨object, hObject, rfl⟩ := Option.map_eq_some_iff.mp hFd
  obtain ⟨number, serial, hNumber, hHeld⟩ := h.tracked.held 0 object hObject hPos
  exact ⟨number, serial, hNumber ▸ hFd, hHeld⟩

theorem Owned.doWrite (h : s.Owned) (hConnected : s.Connected) {frame : CanFrame}
    (hWrite : s.doWrite frame = some t) : s.Adds [frame] t := by
  obtain ⟨fd, serial, hFd, hHeld⟩ := hConnected
  simp only [Sender.doWrite, hFd] at hWrite
  split_ifs at hWrite
  cases hWrite
  have hOwns : s.sockets.ledger.owns 0 fd = true := (h.tracked.sound h.rightful).owns hHeld
  refine ⟨⟨h.tracked, h.rightful, h.present, ?_⟩, by simp [Sender.frames], rfl⟩
  intro write hMem
  rcases List.mem_append.mp hMem with hBefore | hNew
  · exact h.own write hBefore
  · rw [List.mem_singleton.mp hNew]
    exact hOwns

/-- A connected sender can always write. -/
theorem Owned.doWrite_enabled (h : s.Owned) (hConnected : s.Connected) (frame : CanFrame) :
    ∃ t, s.doWrite frame = some t := by
  obtain ⟨fd, serial, hFd, hHeld⟩ := hConnected
  have hOpen := (h.tracked.sound h.rightful).live 0 fd serial hHeld
  simp [Sender.doWrite, hFd, hOpen]

end Parts

variable {toCanFrame} {s t : Sender Frame} {frame : Frame} {faults : SocketObjects.SendFaults}
  {result : Except Error Unit}

/-- The end of `send` never reports success. -/
theorem delivered_error (frame : Frame) (error : SocketObjects.WriteError) :
    (SendCall.mk frame error.result).delivered toCanFrame = [] := by
  unfold SocketObjects.WriteError.result
  split_ifs <;> rfl

/-- One write puts the frame on the socket and is the whole success of the call. -/
theorem Owned.doWrite_returned (h : s.Owned) (hConnected : s.Connected)
    (hWrite : (s.doWrite (toCanFrame frame)).map (fun s => (Except.ok (), s)) = some (result, t)) :
    s.Adds ((SendCall.mk frame result).delivered toCanFrame) t := by
  obtain ⟨u, hDone, hSame⟩ := Option.map_eq_some_iff.mp hWrite
  obtain ⟨rfl, rfl⟩ := Prod.mk.inj hSame
  exact h.doWrite hConnected hDone

theorem Owned.sendFrame (h : s.Owned) (hConnected : s.Connected)
    (hSend : s.sendFrame toCanFrame frame faults = some (result, t)) :
    s.Adds ((SendCall.mk frame result).delivered toCanFrame) t := by
  unfold Sender.sendFrame at hSend
  cases hWrite : faults.write with
  | none =>
      simp only [hWrite] at hSend
      exact h.doWrite_returned hConnected hSend
  | some error =>
      simp only [hWrite] at hSend
      split_ifs at hSend with hFatal
      · cases hConnect : s.ensureConnected faults.reconnect with
        | none => simp [hConnect] at hSend
        | some connected =>
            obtain ⟨connection, u⟩ := connected
            have hBefore := h.ensureConnected hConnect
            rw [hConnect] at hSend
            cases connection with
            | error error =>
                obtain ⟨rfl, rfl⟩ := Prod.mk.inj (Option.some.inj hSend)
                exact hBefore
            | ok =>
                cases hRewrite : faults.rewrite with
                | none =>
                    simp only [hRewrite] at hSend
                    exact hBefore.trans (hBefore.owned.doWrite_returned (connected_of_ok hConnect) hSend)
                | some error =>
                    simp only [hRewrite] at hSend
                    obtain ⟨rfl, rfl⟩ := Prod.mk.inj (Option.some.inj hSend)
                    rw [delivered_error]
                    exact hBefore
      · obtain ⟨rfl, rfl⟩ := Prod.mk.inj (Option.some.inj hSend)
        rw [delivered_error]
        exact h.adds_nil

/-- A call puts its frame on the socket exactly if it returns success. -/
theorem Owned.send (h : s.Owned) (hSend : s.send toCanFrame frame faults = some (result, t)) :
    s.Adds ((SendCall.mk frame result).delivered toCanFrame) t := by
  unfold Sender.send at hSend
  cases hFd : s.getSockFd with
  | none => simp [hFd] at hSend
  | some fd =>
      simp only [hFd] at hSend
      split_ifs at hSend with hNone
      · cases hConnect : s.ensureConnected faults.connect with
        | none => simp [hConnect] at hSend
        | some connected =>
            obtain ⟨connection, u⟩ := connected
            have hBefore := h.ensureConnected hConnect
            rw [hConnect] at hSend
            cases connection with
            | error error =>
                obtain ⟨rfl, rfl⟩ := Prod.mk.inj (Option.some.inj hSend)
                exact hBefore
            | ok => exact hBefore.trans (hBefore.owned.sendFrame (connected_of_ok hConnect) hSend)
      · exact h.sendFrame (h.connected hFd (Int.not_le.mp hNone)) hSend

theorem doWrite_sockets {frame : CanFrame} (hWrite : s.doWrite frame = some t) :
    t.sockets = s.sockets := by
  unfold Sender.doWrite at hWrite
  split at hWrite
  · split_ifs at hWrite
    rw [← Option.some.inj hWrite]
  · cases hWrite

theorem returned_sockets {frame : CanFrame}
    (hWrite : (s.doWrite frame).map (fun s => (Except.ok (), s)) = some (result, t)) :
    result = .ok () ∧ t.sockets = s.sockets := by
  obtain ⟨u, hDone, hSame⟩ := Option.map_eq_some_iff.mp hWrite
  obtain ⟨rfl, rfl⟩ := Prod.mk.inj hSame
  exact ⟨rfl, doWrite_sockets hDone⟩

theorem sendFrame_sockets {object : SocketObject} (hObject : s.sockets.objects 0 = some object)
    (hSend : s.sendFrame toCanFrame frame faults = some (result, t)) :
    s.sockets.sendFrame 0 object faults = some (result, t.sockets) := by
  unfold Sender.sendFrame at hSend
  unfold SocketObjects.sendFrame
  cases hWrite : faults.write with
  | none =>
      simp only [hWrite] at hSend
      obtain ⟨rfl, hSame⟩ := returned_sockets hSend
      rw [hSame]
  | some error =>
      simp only [hWrite] at hSend
      split_ifs at hSend with hFatal
      · simp only [if_pos hFatal]
        cases hConnect : s.ensureConnected faults.reconnect with
        | none => simp [hConnect] at hSend
        | some connected =>
            obtain ⟨connection, u⟩ := connected
            obtain ⟨same, sockets, hSame, hSockets, rfl⟩ := ensureConnected_eq_some.mp hConnect
            cases hObject.symm.trans hSame
            rw [hConnect] at hSend
            rw [hSockets]
            cases connection with
            | error error =>
                obtain ⟨rfl, rfl⟩ := Prod.mk.inj (Option.some.inj hSend)
                rfl
            | ok =>
                cases hRewrite : faults.rewrite with
                | none =>
                    simp only [hRewrite] at hSend
                    obtain ⟨rfl, hAfter⟩ := returned_sockets hSend
                    rw [hAfter]
                | some error =>
                    simp only [hRewrite] at hSend
                    obtain ⟨rfl, rfl⟩ := Prod.mk.inj (Option.some.inj hSend)
                    rfl
      · obtain ⟨rfl, rfl⟩ := Prod.mk.inj (Option.some.inj hSend)
        simp only [if_neg hFatal]

/-- What a call does with the descriptors is what `SocketObjects.send` says. -/
theorem send_sockets (hSend : s.send toCanFrame frame faults = some (result, t)) :
    s.sockets.send 0 faults = some (result, t.sockets) := by
  unfold Sender.send at hSend
  unfold SocketObjects.send
  cases hObject : s.sockets.objects 0 with
  | none => simp [getSockFd, hObject] at hSend
  | some object =>
      simp only [getSockFd, hObject, Option.map_some] at hSend
      split_ifs at hSend with hNone
      · cases hConnect : s.ensureConnected faults.connect with
        | none => simp [hConnect] at hSend
        | some connected =>
            obtain ⟨connection, u⟩ := connected
            obtain ⟨same, sockets, hSame, hSockets, rfl⟩ := ensureConnected_eq_some.mp hConnect
            cases hObject.symm.trans hSame
            rw [hConnect] at hSend
            simp only [if_pos hNone, hSockets]
            cases connection with
            | error error =>
                obtain ⟨rfl, rfl⟩ := Prod.mk.inj (Option.some.inj hSend)
                rfl
            | ok =>
                obtain ⟨after, hAfter⟩ := objects_ensureConnected hSockets
                simp only [hAfter]
                exact sendFrame_sockets hAfter hSend
      · simp only [if_neg hNone]
        exact sendFrame_sockets hObject hSend

/-- What holds between the writes and the calls in every reachable state. -/
structure ExactlyOnce (toCanFrame : Frame → CanFrame) (s : Sender Frame) : Prop where
  owned : s.Owned
  frames : s.frames = s.calls.flatMap (·.delivered toCanFrame)

/-- The application's own descriptors do not matter. -/
theorem ExactlyOnce.foreign (h : s.ExactlyOnce toCanFrame) {sockets : SocketObjects}
    {action : SocketObjects.Action} (hStep : s.sockets.step action = some sockets)
    (hCloses : sockets.closes = s.sockets.closes) (hObjects : sockets.objects = s.sockets.objects) :
    ExactlyOnce toCanFrame { s with sockets := sockets } := by
  have hTracked := (h.owned.tracked.step (SocketObjects.step_cases hStep)).1
  have hRightful : sockets.Rightful := by
    intro close hClose
    exact h.owned.rightful close (hCloses ▸ hClose)
  exact ⟨⟨hTracked, hRightful, hObjects ▸ h.owned.present, h.owned.own⟩, h.frames⟩

theorem ExactlyOnce.step (h : s.ExactlyOnce toCanFrame) {action : Action Frame}
    (hStep : (machine toCanFrame).step s action = some t) : t.ExactlyOnce toCanFrame := by
  cases action with
  | send frame faults =>
      obtain ⟨⟨result, u⟩, hSend, rfl⟩ := Option.map_eq_some_iff.mp hStep
      have hAdds := h.owned.send hSend
      refine ⟨⟨hAdds.owned.tracked, hAdds.owned.rightful, hAdds.owned.present, hAdds.owned.own⟩, ?_⟩
      rw [List.flatMap_append, List.flatMap_singleton]
      change u.frames = _
      rw [hAdds.frames, hAdds.calls, h.frames]
  | openForeign fd | closeForeign fd =>
      obtain ⟨sockets, hSockets, rfl⟩ := Option.map_eq_some_iff.mp hStep
      have hSame := hSockets
      simp only [SocketObjects.step] at hSame
      split_ifs at hSame
      exact h.foreign hSockets (by rw [← Option.some.inj hSame]) (by rw [← Option.some.inj hSame])

theorem exactlyOnce_start (application : Nat → Bool) (interfaceName : List UInt8) :
    (start application interfaceName : Sender Frame).ExactlyOnce toCanFrame := by
  have hNone : (SocketObjects.start application).objects 0 = none := rfl
  have hTracked := (SocketObjects.tracked_start application).construct hNone .sender interfaceName
  refine ⟨⟨hTracked, ?_, ⟨_, rfl⟩, ?_⟩, rfl⟩
  · intro close hClose
    cases hClose
  · intro write hWrite
    cases hWrite

/-- The calls of a `send` that has to make a new connection and can: nothing fails but
the write on the old socket, if there is one, and that with a fatal error. -/
def Reconnects (s : Sender Frame) (fd : Nat) (faults : SocketObjects.SendFaults) : Prop :=
  ∀ object, s.sockets.objects 0 = some object →
    (s.sockets.disconnect 0 object).ledger.openings fd = none ∧
      if object.socket.sockFd ≤ 0 then faults.connect = .connected fd ∧ faults.write = none
      else (∃ error, faults.write = some error ∧ error.isFatal = true) ∧
        faults.reconnect = .connected fd ∧ faults.rewrite = none

theorem ensureConnected_connects {object : SocketObject} {fd : Nat}
    (hObject : s.sockets.objects 0 = some object)
    (hFree : (s.sockets.disconnect 0 object).ledger.openings fd = none) :
    ∃ t, s.ensureConnected (.connected fd) = some (.ok (), t) := by
  have hSockets : s.sockets.ensureConnected 0 object (.connected fd) =
      some (.ok (), (s.sockets.disconnect 0 object).obtain 0 object fd) := by
    simp only [SocketObjects.ensureConnected, if_pos hFree]
    rfl
  exact ⟨_, ensureConnected_eq_some.mpr ⟨object, _, hObject, hSockets, rfl⟩⟩

theorem Owned.send_recovers (h : s.Owned) {fd : Nat} (hReconnects : s.Reconnects fd faults) (frame : Frame) :
    ∃ t, s.send toCanFrame frame faults = some (.ok (), t) := by
  obtain ⟨object, hObject⟩ := h.present
  obtain ⟨hFree, hCalls⟩ := hReconnects object hObject
  have hFd : s.getSockFd = some object.socket.sockFd := by simp [getSockFd, hObject]
  obtain ⟨u, hConnect⟩ := ensureConnected_connects hObject hFree
  obtain ⟨t, hWrite⟩ := (h.ensureConnected hConnect).owned.doWrite_enabled (connected_of_ok hConnect)
    (toCanFrame frame)
  refine ⟨t, ?_⟩
  split_ifs at hCalls with hNone
  · obtain ⟨hFirst, hNoFault⟩ := hCalls
    simp [Sender.send, Sender.sendFrame, hFd, hNone, hFirst, hConnect, hNoFault, hWrite]
  · obtain ⟨⟨error, hOld, hFatal⟩, hAgain, hNoFault⟩ := hCalls
    simp [Sender.send, Sender.sendFrame, hFd, hNone, hOld, hFatal, hAgain, hConnect, hNoFault, hWrite]

/-- The frames on the sender's sockets are those of the calls that returned success, each
once and in their order, and a call that has to reconnect and can returns success. -/
theorem sent_exactly_once (toCanFrame : Frame → CanFrame) (application : Nat → Bool)
    (interfaceName : List UInt8) {s : Sender Frame}
    (hReachable : (machine toCanFrame).Reachable (start application interfaceName) s) :
    s.frames = s.calls.flatMap (·.delivered toCanFrame) ∧
    (∀ write ∈ s.writes, write.ownSocket = true) ∧
    (∀ frame faults result t, s.send toCanFrame frame faults = some (result, t) →
      t.frames = s.frames ++ (SendCall.mk frame result).delivered toCanFrame) ∧
    ∀ fd faults, s.Reconnects fd faults →
      ∀ frame, ∃ t, s.send toCanFrame frame faults = some (.ok (), t) := by
  have h : s.ExactlyOnce toCanFrame :=
    hReachable.invariant (exactlyOnce_start application interfaceName) fun _ _ _ hBefore => hBefore.step
  refine ⟨h.frames, h.owned.own, ?_, ?_⟩
  · intro frame faults result t hSend
    exact (h.owned.send hSend).frames
  · intro fd faults hReconnects frame
    exact h.owned.send_recovers hReconnects frame

/-- The interface appears after a first call, and goes down once. -/
def outage (frame : CanFrame) : List (Action CanFrame) :=
  [.send frame ⟨.indexFails 3 (ascii "No such device"), none, .connected 3, none⟩,
    .send frame ⟨.connected 3, none, .connected 4, none⟩,
    .send frame ⟨.connected 4, some ⟨100, ascii "Network is down"⟩, .connected 4, none⟩]

theorem sent_exactly_once_can0 : ∃ s t : Sender CanFrame,
    (machine id).run (start (fun fd => fd < 3) (ascii "can0")) (outage .zero) = some s ∧
      s.frames = [.zero, .zero] ∧
      s.send id .zero ⟨.connected 3, some ⟨19, ascii "No such device"⟩, .connected 5, none⟩ =
        some (.ok (), t) ∧ t.frames = [.zero, .zero, .zero] := by
  obtain ⟨s, hRun⟩ : ∃ s, (machine id).run (start (fun fd => fd < 3) (ascii "can0"))
      (outage .zero) = some s := ⟨_, rfl⟩
  obtain ⟨hFrames, _, hCall, hRecovers⟩ := sent_exactly_once id _ _ ⟨_, hRun⟩
  have hCalls : s.calls.map (·.delivered id) = [[], [.zero], [.zero]] := by
    cases hRun
    rfl
  have hReconnects : s.Reconnects 5
      ⟨.connected 3, some ⟨19, ascii "No such device"⟩, .connected 5, none⟩ := by
    cases hRun
    intro object hObject
    cases hObject
    exact ⟨rfl, ⟨_, rfl, rfl⟩, rfl, rfl⟩
  obtain ⟨t, hSend⟩ := hRecovers 5 _ hReconnects .zero
  have hBefore : s.frames = [.zero, .zero] := by
    rw [hFrames, List.flatMap_def, hCalls]
    rfl
  refine ⟨s, t, hRun, hBefore, hSend, ?_⟩
  rw [hCall _ _ _ _ hSend, hBefore]
  rfl

end Sender
end HyCAN
