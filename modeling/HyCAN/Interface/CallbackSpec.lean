import HyCAN.Interface.Dispatcher

/-! What a dispatcher is for, without threads, descriptors or locks: callbacks are
registered under identifiers, frames arrive, and each frame goes to the callback
registered for its identifier at the moment it is looked up. -/
namespace HyCAN

/-- `pending` is the frame that was received and not yet looked up, and `looked` are the
frames that were, in their order. -/
structure CallbackSpec (Func : Type) where
  registry : Nat → Option Func
  pending : Option CanFrame
  looked : List CanFrame
  calls : List (Func × CanFrame)

namespace CallbackSpec

variable {Func : Type}

def init : CallbackSpec Func := ⟨fun _ => none, none, [], []⟩

/-- A lookup without a received frame calls nothing, and the calls a dispatcher
reports have no influence on the calls that it owes. -/
def step (spec : CallbackSpec Func) : Observation Func → CallbackSpec Func
  | .registered id func => { spec with registry := Function.update spec.registry id (some func) }
  | .received frame => { spec with pending := some frame }
  | .lookedUp => match spec.pending with
    | none => spec
    | some frame => { spec with
        pending := none
        looked := spec.looked ++ [frame]
        calls := spec.calls ++ ((spec.registry frame.canId.toNat).map (·, frame)).toList }
  | .invoked _ _ => spec

/-- The specification after everything that was observed. -/
def after (log : List (Observation Func)) : CallbackSpec Func :=
  log.foldl step init

theorem after_append (log more : List (Observation Func)) :
    after (log ++ more) = more.foldl step (after log) := by
  rw [after, List.foldl_append]
  rfl

@[simp] theorem step_invoked (spec : CallbackSpec Func) (func : Func) (frame : CanFrame) :
    spec.step (.invoked func frame) = spec := rfl

section Lookup

variable {spec : CallbackSpec Func} {frame : CanFrame}

theorem step_lookedUp_idle (hPending : spec.pending = none) : spec.step .lookedUp = spec := by
  simp [step, hPending]

theorem step_lookedUp_pending (hPending : spec.pending = some frame) :
    spec.step .lookedUp = { spec with
      pending := none
      looked := spec.looked ++ [frame]
      calls := spec.calls ++ ((spec.registry frame.canId.toNat).map (·, frame)).toList } := by
  simp [step, hPending]

end Lookup

/-- The frames that were received, in order. -/
def receivedFrames (log : List (Observation Func)) : List CanFrame :=
  log.filterMap fun
    | .received frame => some frame
    | _ => none

@[simp] theorem receivedFrames_append (log more : List (Observation Func)) :
    receivedFrames (log ++ more) = receivedFrames log ++ receivedFrames more :=
  List.filterMap_append

/-- No frame was received before the one before it was looked up. -/
def InTurn (log : List (Observation Func)) : Prop :=
  receivedFrames log = (after log).looked ++ (after log).pending.toList

theorem InTurn.received {log : List (Observation Func)} (h : InTurn log)
    (hIdle : (after log).pending = none) (frame : CanFrame) : InTurn (log ++ [.received frame]) := by
  rw [InTurn, hIdle] at h
  rw [InTurn, receivedFrames_append, h, after_append]
  simp [receivedFrames, step]

/-- A lookup takes the frame whose turn it is. -/
theorem InTurn.lookedUp {log : List (Observation Func)} (h : InTurn log) : InTurn (log ++ [.lookedUp]) := by
  rw [InTurn] at h
  rw [InTurn, receivedFrames_append, h, after_append, List.foldl_cons, List.foldl_nil]
  cases hPending : (after log).pending with
  | none => simp [step_lookedUp_idle hPending, hPending, receivedFrames]
  | some frame => simp [step_lookedUp_pending hPending, receivedFrames]

/-- What is no business of the frames. -/
theorem InTurn.append {log : List (Observation Func)} {event : Observation Func} (h : InTurn log)
    (hOther : (∃ id func, event = .registered id func) ∨ ∃ func frame, event = .invoked func frame) :
    InTurn (log ++ [event]) := by
  rw [InTurn] at h
  rw [InTurn, receivedFrames_append, h, after_append]
  rcases hOther with ⟨id, func, rfl⟩ | ⟨func, frame, rfl⟩ <;> simp [receivedFrames, step]

end CallbackSpec
end HyCAN
