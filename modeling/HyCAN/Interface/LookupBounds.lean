import HyCAN.Interface.DispatcherLock

/-! The reaper's own path into `funcs`. `register_func` checks the identifiers it
is given; the reaper takes whatever word a frame carries. -/
namespace HyCAN.Dispatcher

open Transition

variable {Tid Func : Type} [DecidableEq Tid]

/-- None of the actions is a step of the reaper. -/
def OthersOnly (actions : List (Action Tid Func)) : Prop :=
  ∀ action ∈ actions, ∀ step, action ≠ .reap step

/-- What the dispatch section owes to a frame once it has `lock_`: the lookup
stays inside `funcs`, and a frame without a callback is dropped, so that the
table and `lock_` are, after the section, what they were before it, whatever
the other threads do meanwhile. -/
structure DispatchSafe (s : Dispatcher Tid Func) (frame : CanFrame) : Prop where
  inBounds : ∀ t, (machine Tid Func).step s (.reap .dispatch) = some t →
    ∀ reaper events, t.reapThread = some reaper → reaper.pc ≠ .fault events
  dropped : (∀ func, s.funcs[frame.canId.toNat]? ≠ some (some func)) →
    ∀ before after t, OthersOnly before → OthersOnly after →
      (machine Tid Func).run s
        (before ++ .reap .dispatch :: (after ++ [.reap .unlock])) = some t →
      t.funcs = s.funcs ∧ t.lock = false ∧ invocations t.log = invocations s.log

/-- While the reaper is inside, no other thread reaches the table or the lock. -/
structure Guarded (s t : Dispatcher Tid Func) (pc : ReaperPc) : Prop where
  funcs : t.funcs = s.funcs
  invocations : invocations t.log = invocations s.log
  reaper : ∃ reaper, t.reapThread = some reaper ∧ reaper.pc = pc
  exclusive : t.lockView.Exclusive

omit [DecidableEq Tid] in
theorem Guarded.refl {s : Dispatcher Tid Func} {reaper : Reaper} (hExclusive : s.lockView.Exclusive)
    (hReaper : s.reapThread = some reaper) : Guarded s s reaper.pc :=
  ⟨rfl, rfl, ⟨reaper, hReaper, rfl⟩, hExclusive⟩

/-- One step of another thread. A registration that is past its own lock would
be a second thread inside. -/
theorem Guarded.step {s t u : Dispatcher Tid Func} {pc : ReaperPc} {action : Action Tid Func}
    (h : Guarded s t pc) (hInside : pc.inside = true) (hOther : ∀ step, action ≠ .reap step)
    (hStep : (machine Tid Func).step t action = some u) : Guarded s u pc := by
  obtain ⟨reaper, hReaper, rfl⟩ := h.reaper
  have hReaperIn : t.Inside .reaper := (inside_reaper_iff hReaper).mpr hInside
  have hHeld : t.lock = true := h.exclusive.held ⟨Holder.reaper, hReaperIn⟩
  have hAlone (tid : Tid) : (t.registrars tid).inside = false := by
    by_contra hIn
    have hTidIn : t.Inside (.registrar tid) := by simpa [Inside] using hIn
    have hSame : Holder.reaper = .registrar tid := h.exclusive.alone hReaperIn hTidIn
    cases hSame
  obtain ⟨e, hEffect, _⟩ := (machine_step hStep).lockEffect
  have hExclusive := hEffect.exclusive h.exclusive
  cases machine_step hStep with
  | reap => exact absurd rfl (hOther _)
  | @register tid _ _ hRegister =>
      have hTid := hAlone tid
      cases hRegister with
      | called => exact ⟨h.funcs, h.invocations, ⟨reaper, hReaper, rfl⟩, hExclusive⟩
      | acquired _ hFree => simp [hHeld] at hFree
      | stored hPc => simp [hPc, RegisterPc.inside] at hTid
      | left hPc => simp [hPc, RegisterPc.inside] at hTid
      | released hPc => simp [hPc, RegisterPc.inside] at hTid
  | start hStart =>
      cases hStart with
      | spawned _ hNone => simp [hReaper] at hNone
      | _ => exact ⟨h.funcs, h.invocations, ⟨reaper, hReaper, rfl⟩, hExclusive⟩
  | stop hStop =>
      cases hStop with
      | @requested stopped _ hSame =>
          rw [hReaper] at hSame
          cases hSame
          exact ⟨h.funcs, h.invocations, ⟨_, rfl, rfl⟩, hExclusive⟩
      | @joined joined _ hSame hExited =>
          rw [hReaper] at hSame
          cases hSame
          simp [hExited, ReaperPc.inside] at hInside
      | _ => exact ⟨h.funcs, h.invocations, ⟨reaper, hReaper, rfl⟩, hExclusive⟩
  | kernel hKernel =>
      cases hKernel <;> exact ⟨h.funcs, h.invocations, ⟨reaper, hReaper, rfl⟩, hExclusive⟩

theorem Guarded.run {s t u : Dispatcher Tid Func} {pc : ReaperPc} {actions : List (Action Tid Func)}
    (h : Guarded s t pc) (hInside : pc.inside = true) (hOthers : OthersOnly actions)
    (hRun : (machine Tid Func).run t actions = some u) : Guarded s u pc := by
  induction actions generalizing t with
  | nil => exact Option.some.inj hRun ▸ h
  | cons action rest ih =>
      obtain ⟨mid, hStep, hRest⟩ := Option.bind_eq_some_iff.mp hRun
      exact ih (h.step hInside (hOthers action (by simp)) hStep)
        (fun other hMem => hOthers other (by simp [hMem])) hRest

/-- The whole section for a frame whose entry is empty. -/
theorem section_drops {s t : Dispatcher Tid Func} {reaper : Reaper} {fd : Fd} {frame : CanFrame}
    {events : List EpollEvent} {before after : List (Action Tid Func)}
    (hExclusive : s.lockView.Exclusive) (hReaper : s.reapThread = some reaper)
    (hPc : reaper.pc = .locked fd frame events)
    (hEntry : s.funcs[frame.canId.toNat]? = some none)
    (hBefore : OthersOnly before) (hAfter : OthersOnly after)
    (hRun : (machine Tid Func).run s
      (before ++ .reap .dispatch :: (after ++ [.reap .unlock])) = some t) :
    t.funcs = s.funcs ∧ t.lock = false ∧ invocations t.log = invocations s.log := by
  rw [Machine.run_append] at hRun
  obtain ⟨u, hFirst, hRest⟩ := Option.bind_eq_some_iff.mp hRun
  have hGuard := (Guarded.refl hExclusive hReaper).run (by rw [hPc]; rfl) hBefore hFirst
  rw [Machine.run_cons] at hRest
  obtain ⟨v, hDispatch, hRest⟩ := Option.bind_eq_some_iff.mp hRest
  obtain ⟨w, hMiddle, hUnlock⟩ := ((machine Tid Func).run_concat_eq_some).mp hRest
  -- the dispatch itself: with an empty entry only the lookup is observed
  obtain ⟨reaper', hReaper', hPc'⟩ := hGuard.reaper
  have hDropped : Guarded s v (.unlocking events) := by
    obtain ⟨e, hEffect, _⟩ := (machine_step hDispatch).lockEffect
    have hExclusive' := hEffect.exclusive hGuard.exclusive
    cases machine_step hDispatch with
    | @reap moved _ _ hSame hReap =>
        rw [hReaper'] at hSame
        cases hSame
        have hPlace := hPc'.trans hPc
        cases hReap with
        | faulted hAt hOut =>
            rw [hPlace] at hAt
            cases hAt
            simp [hGuard.funcs, hEntry] at hOut
        | dropped hAt =>
            rw [hPlace] at hAt
            cases hAt
            refine ⟨hGuard.funcs, ?_, ⟨_, rfl, rfl⟩, hExclusive'⟩
            simpa using hGuard.invocations
        | called hAt hCalled =>
            rw [hPlace] at hAt
            cases hAt
            simp [hGuard.funcs, hEntry] at hCalled
  have hLast := hDropped.run rfl hAfter hMiddle
  cases machine_step hUnlock with
  | reap hSame hReap =>
      cases hReap with
      | released => exact ⟨hLast.funcs, rfl, hLast.invocations⟩

/-- With `lock_` taken for a frame, in any reachable state, the section is safe
exactly for the identifier words below the size of the table. -/
theorem dispatch_safe_iff {threadEventFd : Fd} {s : Dispatcher Tid Func} {reaper : Reaper} {fd : Fd}
    {frame : CanFrame} {events : List EpollEvent}
    (hReachable : (machine Tid Func).Reachable (init threadEventFd) s)
    (hReaper : s.reapThread = some reaper) (hPc : reaper.pc = .locked fd frame events) :
    DispatchSafe s frame ↔ frame.canId.toNat < maxStdCanId := by
  constructor
  · intro hSafe
    by_contra hOut
    have hStep : (machine Tid Func).step s (.reap .dispatch) =
        some (s.moveReaper reaper (.fault events)) := by
      have hEntry : s.funcs[frame.canId.toNat]? = none := by simpa using hOut
      simp [machine, hReaper, reapProcess, hPc, hEntry]
    exact hSafe.inBounds _ hStep _ events rfl rfl
  · intro hIn
    refine ⟨?_, ?_⟩
    · intro t hStep moved events' hMoved hFault
      cases machine_step hStep with
      | reap hSame hReap =>
          cases hReap with
          | faulted hAt hEntry =>
              rw [hReaper] at hSame
              cases hSame
              rw [hPc] at hAt
              cases hAt
              simp only [Vector.getElem?_eq_none_iff] at hEntry
              omega
          | dropped | called =>
              cases hMoved
              cases hFault
    · intro hNone before after t hBefore hAfter hRun
      have hEntry : s.funcs[frame.canId.toNat]? = some none := by
        rw [Vector.getElem?_eq_getElem hIn] at hNone ⊢
        cases hFunc : s.funcs[frame.canId.toNat] with
        | none => rfl
        | some func => exact absurd (by rw [hFunc]) (hNone func)
      exact section_drops (exclusive_of_reachable hReachable) hReaper hPc hEntry hBefore hAfter hRun

/-- Bring the socket up, start the reaper, and let it take the lock for the first
frame that arrives. -/
def lockForFrame (frame : CanFrame) : List (Action Unit Unit) :=
  smoothStart 5 ++ [.kernel (.arrive .current frame), .reap (.epollWait [⟨5, true, false⟩]), .reap .test, .reap .read,
    .reap .lock]

/-- A frame with a 29-bit identifier, as `CAN_EFF_FLAG` marks it. -/
def extendedFrame : CanFrame := { CanFrame.zero with canId := CanFrame.effFlag ||| 0x18DAF110 }

theorem extended_frame_out_of_bounds :
    ∃ s, (machine Unit Unit).run (init 3) (lockForFrame extendedFrame) = some s ∧
      ¬DispatchSafe s extendedFrame := by
  refine ⟨_, rfl, fun hSafe => ?_⟩
  exact hSafe.inBounds _ rfl _ [] rfl rfl

theorem dispatch_safe_standard_frame :
    ∃ s, (machine Unit Unit).run (init 3)
      (lockForFrame { CanFrame.zero with canId := 0x7FF }) = some s ∧
      (DispatchSafe s { CanFrame.zero with canId := 0x7FF } ↔
        (0x7FF : UInt32).toNat < maxStdCanId) := by
  refine ⟨_, rfl, ?_⟩
  have hReachable : (machine Unit Unit).Reachable (init 3) _ :=
    ⟨lockForFrame { CanFrame.zero with canId := 0x7FF }, rfl⟩
  exact dispatch_safe_iff hReachable rfl rfl

end HyCAN.Dispatcher
