import HyCAN.Client.NetlinkClient
import HyCAN.Interface.DispatcherSteps

/-! `register_func` as a function of the table: what its loop leaves when it gets to the
end, and what when it stops at an identifier that is too large. -/
namespace HyCAN

/-- A `std::set<size_t>`, in the order of its iterators. -/
structure CanIdSet where
  ids : List Nat
  ascending : ids.Pairwise (· < ·)
  representable : ∀ id ∈ ids, id < 2 ^ 64

namespace CallbackTable

variable {Func : Type}

/-- The loop, on what it has left of the set. -/
def registerIds (table : CallbackTable Func) (func : Func) :
    List Nat → Except Error Unit × CallbackTable Func
  | [] => (.ok (), table)
  | id :: ids =>
    if maxStdCanId ≤ id then
      (.error ⟨.funcCanIdSetError, ascii "CAN ID " ++ Decimal.digits id ++
        ascii " exceeds maximum limit of 2047"⟩, table)
    else registerIds (table.setIfInBounds id (some func)) func ids

/-- What a call of `register_func` that has the lock returns, and the table then. -/
def registerFunc (table : CallbackTable Func) (canIds : CanIdSet) (func : Func) :
    Except Error Unit × CallbackTable Func :=
  registerIds table func canIds.ids

variable {table : CallbackTable Func} {func : Func} {ids : List Nat}

/-- The loop gets to the end exactly if no identifier is too large. -/
theorem registerIds_ok_iff :
    (registerIds table func ids).1 = .ok () ↔ ∀ id ∈ ids, id < maxStdCanId := by
  induction ids generalizing table with
  | nil => simp [registerIds]
  | cons id ids ih =>
      rw [registerIds]
      split_ifs with hLarge
      · simp [Nat.not_lt.mpr hLarge]
      · rw [ih, List.forall_mem_cons, and_iff_right (Nat.lt_of_not_le hLarge)]

/-- Because the order is ascending, all identifiers that fit are written before the loop
can stop. -/
theorem getElem_registerIds (hAscending : ids.Pairwise (· < ·)) {k : Nat} (hK : k < maxStdCanId) :
    (registerIds table func ids).2[k] = if k ∈ ids then some func else table[k] := by
  induction ids generalizing table with
  | nil => simp [registerIds]
  | cons id ids ih =>
      obtain ⟨hAbove, hRest⟩ := List.pairwise_cons.mp hAscending
      by_cases hLarge : maxStdCanId ≤ id
      · -- nothing from here on fits
        have hNot : k ∉ id :: ids := by
          intro hMem
          rcases List.mem_cons.mp hMem with hHead | hTail
          · omega
          · have hBeyond := hAbove k hTail
            omega
        simp only [registerIds, hLarge, hNot, ↓reduceIte]
      · simp only [registerIds, hLarge, ↓reduceIte]
        rw [ih hRest]
        by_cases hHead : k = id
        · subst hHead
          simp
        · simp [hHead, Vector.getElem_setIfInBounds_ne hK (Ne.symm hHead)]

/-- An error has left the table as it was, and after a success the entries of the set,
and no others, are new. -/
def AllOrNothing (table : CallbackTable Func) (canIds : CanIdSet) (func : Func) : Prop :=
  let done := registerFunc table canIds func
  (∀ error, done.1 = .error error → done.2 = table) ∧
    (done.1 = .ok () → (∀ id ∈ canIds.ids, done.2[id]? = some (some func)) ∧
      ∀ id, id ∉ canIds.ids → done.2[id]? = table[id]?)

/-- A registration is all or nothing exactly if every identifier fits, or the entries of
those that do hold the function already. -/
theorem registration_all_or_nothing_iff (table : CallbackTable Func) (canIds : CanIdSet) (func : Func) :
    AllOrNothing table canIds func ↔
      (∀ id ∈ canIds.ids, id < maxStdCanId) ∨
        ∀ id ∈ canIds.ids, id < maxStdCanId → table[id]? = some (some func) := by
  have hOk : (registerFunc table canIds func).1 = .ok () ↔ ∀ id ∈ canIds.ids, id < maxStdCanId :=
    registerIds_ok_iff
  have hEntry {k : Nat} (hK : k < maxStdCanId) : (registerFunc table canIds func).2[k] =
      if k ∈ canIds.ids then some func else table[k] := getElem_registerIds canIds.ascending hK
  have hSuccess : (registerFunc table canIds func).1 = .ok () →
      (∀ id ∈ canIds.ids, (registerFunc table canIds func).2[id]? = some (some func)) ∧
        ∀ id, id ∉ canIds.ids → (registerFunc table canIds func).2[id]? = table[id]? := by
    intro hDone
    constructor
    · intro id hMem
      rw [Vector.getElem?_eq_getElem (hOk.mp hDone id hMem), hEntry, if_pos hMem]
    · intro id hNot
      by_cases hId : id < maxStdCanId
      · rw [Vector.getElem?_eq_getElem hId, Vector.getElem?_eq_getElem hId, hEntry, if_neg hNot]
      · rw [Vector.getElem?_eq_none (Nat.le_of_not_lt hId), Vector.getElem?_eq_none (Nat.le_of_not_lt hId)]
  constructor
  · rintro ⟨hKept, _⟩
    by_cases hFit : ∀ id ∈ canIds.ids, id < maxStdCanId
    · exact .inl hFit
    · right
      intro id hMem hId
      cases hResult : (registerFunc table canIds func).1 with
      | ok done => exact absurd (hOk.mp hResult) hFit
      | error error =>
          have hWritten := hEntry hId
          rw [if_pos hMem, hKept error hResult] at hWritten
          rw [Vector.getElem?_eq_getElem hId, hWritten]
  · rintro (hFit | hHeld)
    · refine ⟨?_, hSuccess⟩
      intro error hError
      rw [hOk.mpr hFit] at hError
      cases hError
    · refine ⟨?_, hSuccess⟩
      intro error _
      ext k hK
      rw [hEntry hK]
      split_ifs with hMem
      · have hSame := hHeld k hMem hK
        rw [Vector.getElem?_eq_getElem hK, Option.some.injEq] at hSame
        rw [hSame]
      · rfl

/-- The set `{1, 2048}`: the second identifier is refused, and the first is registered. -/
theorem refused_registration_changes_table :
    ¬∀ (table : CallbackTable Nat) (canIds : CanIdSet) (func : Nat), AllOrNothing table canIds func := by
  intro hClaim
  obtain ⟨hKept, _⟩ := hClaim (Vector.replicate maxStdCanId none) ⟨[1, 2048], by decide, by decide⟩ 0
  have hRange : 1 < maxStdCanId := by decide
  have hWritten : (registerIds (Vector.replicate maxStdCanId none) 0 [1, 2048]).2[1] =
      if 1 ∈ [1, 2048] then some 0 else (Vector.replicate maxStdCanId none)[1] :=
    getElem_registerIds (by decide) hRange
  have hResult : (registerIds (Vector.replicate maxStdCanId none) 0 [1, 2048]).1 ≠ .ok () := by
    rw [Ne, registerIds_ok_iff]
    decide
  cases hError : (registerIds (Vector.replicate maxStdCanId none) 0 [1, 2048]).1 with
  | ok done => exact hResult hError
  | error error =>
      have hSame : (registerIds (Vector.replicate maxStdCanId none) 0 [1, 2048]).2 =
          Vector.replicate maxStdCanId none := hKept error hError
      rw [hSame, Vector.getElem_replicate] at hWritten
      cases hWritten

end CallbackTable

namespace Dispatcher

variable {Tid Func : Type} [DecidableEq Tid]

/-- The steps of the loop, when nobody comes between and no copy throws. -/
theorem run_registerIds (s : Dispatcher Tid Func) (tid : Tid) (func : Func) (ids : List Nat)
    (hLoop : s.registrars tid = .looping ids func) (hLock : s.lock = true) :
    ∃ (actions : List (RegisterAction Func)) (t : Dispatcher Tid Func),
      (machine Tid Func).run s (actions.map (.register tid)) = some t ∧
        t.funcs = (s.funcs.registerIds func ids).2 ∧ t.registrars tid = .idle ∧
        (t.lock = false ↔ (s.funcs.registerIds func ids).1 = .ok ()) := by
  induction ids generalizing s with
  | nil =>
      have hStep : (machine Tid Func).step s (.register tid .unlock) =
          some { s with lock := false, registrars := Function.update s.registrars tid .idle } := by
        simp only [machine, registerFunc, hLoop]
      have hRun : (machine Tid Func).run s ([.unlock].map (.register tid)) =
          some { s with lock := false, registrars := Function.update s.registrars tid .idle } := by
        simp [hStep]
      exact ⟨[.unlock], _, hRun, rfl, by simp, by simp [CallbackTable.registerIds]⟩
  | cons id ids ih =>
      by_cases hLarge : maxStdCanId ≤ id
      · have hStep : (machine Tid Func).step s (.register tid (.next true)) =
            some { s with registrars := Function.update s.registrars tid .idle } := by
          simp only [machine, registerFunc, hLoop, hLarge, true_or, ↓reduceIte]
        have hRun : (machine Tid Func).run s ([.next true].map (.register tid)) =
            some { s with registrars := Function.update s.registrars tid .idle } := by
          simp [hStep]
        refine ⟨[.next true], _, hRun, ?_, by simp, ?_⟩
        · simp [CallbackTable.registerIds, hLarge]
        · simp [CallbackTable.registerIds, hLarge, hLock]
      · let written : Dispatcher Tid Func := { s with
          funcs := s.funcs.setIfInBounds id (some func)
          registrars := Function.update s.registrars tid (.looping ids func) }.observe [.registered id func]
        have hStep : (machine Tid Func).step s (.register tid (.next true)) = some written := by
          simp only [machine, registerFunc, hLoop, hLarge, Bool.true_eq_false, or_self, ↓reduceIte, written]
        have hNext : written.registrars tid = .looping ids func := Function.update_self _ _ _
        obtain ⟨actions, t, hRun, hFuncs, hIdle, hDone⟩ := ih written hNext hLock
        refine ⟨.next true :: actions, t, ?_, ?_, hIdle, ?_⟩
        · rw [List.map_cons, Transition.Machine.run_cons, hStep]
          exact hRun
        · rw [hFuncs, CallbackTable.registerIds, if_neg hLarge]
          rfl
        · rw [hDone, CallbackTable.registerIds, if_neg hLarge]
          rfl

/-- So a call that finds the lock free ends with the table that `registerFunc` gives, and
with the lock free again only if it succeeds. -/
theorem run_registerFunc (s : Dispatcher Tid Func) (tid : Tid) (canIds : CanIdSet) (func : Func)
    (hIdle : s.registrars tid = .idle) (hLock : s.lock = false) :
    ∃ (actions : List (RegisterAction Func)) (t : Dispatcher Tid Func),
      (machine Tid Func).run s (actions.map (.register tid)) = some t ∧
        t.funcs = (s.funcs.registerFunc canIds func).2 ∧ t.registrars tid = .idle ∧
        (t.lock = false ↔ (s.funcs.registerFunc canIds func).1 = .ok ()) := by
  let called : Dispatcher Tid Func :=
    { s with registrars := Function.update s.registrars tid (.locking canIds.ids func) }
  let locked : Dispatcher Tid Func :=
    { called with
      lock := true, registrars := Function.update called.registrars tid (.looping canIds.ids func) }
  have hCall : (machine Tid Func).step s (.register tid (.call canIds.ids func)) = some called := by
    simp only [machine, Dispatcher.registerFunc, hIdle, called]
  have hTaken : (machine Tid Func).step called (.register tid .lock) = some locked := by
    simp [machine, Dispatcher.registerFunc, called, locked, hLock]
  obtain ⟨actions, t, hRun, hEnd⟩ := run_registerIds locked tid func canIds.ids
    (by simp [locked]) rfl
  refine ⟨.call canIds.ids func :: .lock :: actions, t, ?_, hEnd⟩
  rw [List.map_cons, List.map_cons, Transition.Machine.run_cons, hCall, Option.bind_some,
    Transition.Machine.run_cons, hTaken]
  exact hRun

end Dispatcher
end HyCAN
