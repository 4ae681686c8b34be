import HyCAN.Transition.FlagLock
import HyCAN.Transition.Machine
import Mathlib.Data.Set.Basic

/-! `SpinLock`, one atomic operation on `lock_` at a time, for any number of threads that
call it in any order and unlock only what they have locked. -/
namespace HyCAN

open Transition

/-- Before which atomic operation a thread is. -/
inductive SpinPc where
  | idle
  /-- `exchange` in `lock`. -/
  | exchanging
  /-- `load` in the inner loop of `lock`. -/
  | spinning
  /-- `load` in `try_lock`. -/
  | testing
  /-- `exchange` in `try_lock`. -/
  | trying
  /-- `store` in `unlock`. -/
  | storing
  deriving DecidableEq

structure SpinLock (Tid : Type) where
  /-- `lock_` -/
  lock : Bool
  pcs : Tid → SpinPc
  /-- From the `exchange` that returned `false` to the thread's next `store`. -/
  owners : Tid → Bool

namespace SpinLock

variable {Tid : Type} [DecidableEq Tid]

def init : SpinLock Tid := ⟨false, fun _ => .idle, fun _ => false⟩

variable (s : SpinLock Tid) (tid : Tid)

def goto (pc : SpinPc) : SpinLock Tid :=
  { s with pcs := Function.update s.pcs tid pc }

/-- `lock_.exchange(true)`: the thread that gets `false` has the lock and returns, and
another one goes on at the given point. -/
def exchange (failed : SpinPc) : SpinLock Tid :=
  if s.lock then { s.goto tid failed with lock := true }
  else { s.goto tid .idle with lock := true, owners := Function.update s.owners tid true }

/-- `lock_.store(false)` -/
def store : SpinLock Tid :=
  { s.goto tid .idle with lock := false, owners := Function.update s.owners tid false }

/-- The next atomic operation of a thread in a call. -/
def atomicStep : Option (SpinLock Tid) :=
  match s.pcs tid with
  | .idle => none
  | .exchanging => some (s.exchange tid .spinning)
  | .spinning => some (s.goto tid (if s.lock then .spinning else .exchanging))
  | .testing => some (s.goto tid (if s.lock then .idle else .trying))
  | .trying => some (s.exchange tid .idle)
  | .storing => some (s.store tid)

inductive Action (Tid : Type) where
  | lock (tid : Tid)
  | tryLock (tid : Tid)
  | unlock (tid : Tid)
  | atomic (tid : Tid)

/-- `unlock` is called only after a `lock` or a successful `try_lock` of the same thread. -/
def step (s : SpinLock Tid) : Action Tid → Option (SpinLock Tid)
  | .lock tid => if s.pcs tid = .idle then some (s.goto tid .exchanging) else none
  | .tryLock tid => if s.pcs tid = .idle then some (s.goto tid .testing) else none
  | .unlock tid =>
    if s.pcs tid = .idle ∧ s.owners tid = true then some (s.goto tid .storing) else none
  | .atomic tid => s.atomicStep tid

def machine (Tid : Type) [DecidableEq Tid] : Machine (SpinLock Tid) (Action Tid) := ⟨step⟩

/-- `lock_` and the threads between acquisition and release. -/
def lockView (s : SpinLock Tid) : FlagLock Tid :=
  ⟨s.lock, {tid | s.owners tid = true}⟩

/-- Whoever is about to clear the flag has the lock. -/
def StoresOwn (s : SpinLock Tid) : Prop :=
  ∀ tid, s.pcs tid = .storing → s.owners tid = true

section Steps

variable {s t : SpinLock Tid} {tid : Tid}

theorem lockView_exchange (failed : SpinPc) : ∃ effect,
    FlagLock.Step effect s.lockView (s.exchange tid failed).lockView ∧ ∀ h, effect ≠ .leak h := by
  unfold exchange
  split_ifs with hLock
  · have hSame : lockView { s.goto tid failed with lock := true } = s.lockView := by
      simp [lockView, goto, hLock]
    exact ⟨.keep, hSame ▸ .keep _, nofun⟩
  · have hView : lockView { s.goto tid .idle with
        lock := true, owners := Function.update s.owners tid true } =
          ⟨true, insert tid s.lockView.inside⟩ := by
      simp only [lockView, FlagLock.mk.injEq, true_and]
      ext other
      by_cases hSame : other = tid
      · simp [hSame]
      · simp [hSame]
    rw [hView]
    exact ⟨.acquire tid, .acquire (Bool.eq_false_of_not_eq_true hLock), nofun⟩

theorem lockView_store (hOwns : s.owners tid = true) :
    FlagLock.Step (.release tid) s.lockView (s.store tid).lockView := by
  have hView : (s.store tid).lockView = ⟨false, s.lockView.inside \ {tid}⟩ := by
    simp only [lockView, store, FlagLock.mk.injEq, true_and]
    ext other
    by_cases hSame : other = tid
    · simp [hSame]
    · simp [hSame]
  rw [hView]
  exact .release hOwns

/-- Every step keeps the abstract lock as it is, or acquires it, or releases it. -/
theorem lockView_step {action : Action Tid} (hStores : s.StoresOwn)
    (hStep : (machine Tid).step s action = some t) :
    ∃ effect, FlagLock.Step effect s.lockView t.lockView ∧ ∀ h, effect ≠ .leak h := by
  have hKeep (tid : Tid) (pc : SpinPc) : ∃ effect,
      FlagLock.Step effect s.lockView (s.goto tid pc).lockView ∧ ∀ h, effect ≠ .leak h :=
    ⟨.keep, .keep s.lockView, nofun⟩
  change s.step action = some t at hStep
  cases action with
  | lock tid | tryLock tid | unlock tid =>
      simp only [step] at hStep
      split_ifs at hStep
      exact Option.some.inj hStep ▸ hKeep tid _
  | atomic tid =>
      simp only [step, atomicStep] at hStep
      cases hPc : s.pcs tid with
      | idle =>
          rw [hPc] at hStep
          cases hStep
      | exchanging | trying =>
          rw [hPc] at hStep
          exact Option.some.inj hStep ▸ lockView_exchange _
      | spinning | testing =>
          rw [hPc] at hStep
          exact Option.some.inj hStep ▸ hKeep tid _
      | storing =>
          rw [hPc] at hStep
          exact Option.some.inj hStep ▸ ⟨.release tid, lockView_store (hStores tid hPc), nofun⟩

theorem StoresOwn.goto (h : s.StoresOwn) {pc : SpinPc} (hPc : pc = .storing → s.owners tid = true) :
    (s.goto tid pc).StoresOwn := by
  intro other hOther
  rcases eq_or_ne other tid with rfl | hNe
  · exact hPc ((Function.update_self ..).symm.trans hOther)
  · exact h other ((Function.update_of_ne hNe _ _).symm.trans hOther)

/-- Who owns the lock changes for threads that are not about to clear the flag. -/
theorem StoresOwn.own (h : s.StoresOwn) (hPc : s.pcs tid ≠ .storing) (lock owner : Bool) :
    StoresOwn { s with lock := lock, owners := Function.update s.owners tid owner } := by
  intro other hOther
  have hNe : other ≠ tid := by
    rintro rfl
    exact hPc hOther
  exact (Function.update_of_ne hNe _ _).trans (h other hOther)

theorem StoresOwn.exchange (h : s.StoresOwn) {failed : SpinPc} (hFailed : failed ≠ .storing) :
    (s.exchange tid failed).StoresOwn := by
  unfold SpinLock.exchange
  split_ifs
  · exact h.goto fun hPc => absurd hPc hFailed
  · have hMoved : (s.goto tid .idle).StoresOwn := h.goto nofun
    apply hMoved.own
    simp [SpinLock.goto]

theorem StoresOwn.store (h : s.StoresOwn) : (s.store tid).StoresOwn := by
  have hMoved : (s.goto tid .idle).StoresOwn := h.goto nofun
  apply hMoved.own
  simp [SpinLock.goto]

theorem StoresOwn.step (h : s.StoresOwn) {action : Action Tid}
    (hStep : (machine Tid).step s action = some t) : t.StoresOwn := by
  change s.step action = some t at hStep
  cases action with
  | lock tid | tryLock tid =>
      simp only [SpinLock.step] at hStep
      split_ifs at hStep
      exact Option.some.inj hStep ▸ h.goto nofun
  | unlock tid =>
      simp only [SpinLock.step] at hStep
      split_ifs at hStep with hMay
      exact Option.some.inj hStep ▸ h.goto fun _ => hMay.2
  | atomic tid =>
      simp only [SpinLock.step, atomicStep] at hStep
      cases hPc : s.pcs tid with
      | idle =>
          rw [hPc] at hStep
          cases hStep
      | exchanging | trying =>
          rw [hPc] at hStep
          exact Option.some.inj hStep ▸ h.exchange nofun
      | spinning | testing =>
          rw [hPc] at hStep
          refine Option.some.inj hStep ▸ h.goto fun hStoring => ?_
          split_ifs at hStoring
      | storing =>
          rw [hPc] at hStep
          exact Option.some.inj hStep ▸ h.store

end Steps

theorem kept_of_reachable {s : SpinLock Tid} (h : (machine Tid).Reachable init s) :
    s.StoresOwn ∧ s.lockView.Exclusive ∧ s.lockView.Disciplined := by
  refine h.invariant (P := fun s => s.StoresOwn ∧ s.lockView.Exclusive ∧ s.lockView.Disciplined) ?_ ?_
  · have hNobody : (init : SpinLock Tid).lockView.inside = ∅ := by
      simp [lockView, init]
    refine ⟨nofun, ⟨?_, ?_⟩, nofun⟩
    · rw [hNobody]
      exact Set.subsingleton_empty
    · rw [hNobody]
      exact fun hSome => absurd hSome Set.not_nonempty_empty
  · rintro s action t ⟨hStores, hExclusive, hDisciplined⟩ hStep
    obtain ⟨effect, hEffect, hNoLeak⟩ := lockView_step hStores hStep
    exact ⟨hStores.step hStep, hEffect.exclusive hExclusive,
      (hEffect.disciplined_iff hExclusive hDisciplined).mpr hNoLeak⟩

/-- However the atomic operations of the calls interleave: at most one thread is between
acquisition and release, and the flag is set exactly when one is. -/
theorem mutual_exclusion {s : SpinLock Tid} (hReachable : (machine Tid).Reachable init s) :
    (∀ first second, s.owners first = true → s.owners second = true → first = second) ∧
      (s.lock = true ↔ ∃ tid, s.owners tid = true) := by
  obtain ⟨_, hExclusive, hDisciplined⟩ := kept_of_reachable hReachable
  constructor
  · intro first second hFirst hSecond
    exact hExclusive.alone hFirst hSecond
  · exact ⟨hDisciplined, hExclusive.held⟩

/-- The first thread has the lock, the second fails to get it, spins and gets it after the
first has cleared the flag. -/
def handover : List (Action Nat) :=
  [.lock 1, .tryLock 2, .atomic 2, .atomic 1, .atomic 2, .lock 2, .atomic 2, .atomic 2, .unlock 1,
    .atomic 1, .atomic 2, .atomic 2]

theorem mutual_exclusion_handover : ∃ s : SpinLock Nat,
    (machine Nat).run init handover = some s ∧ s.lock = true ∧
      ∀ tid, s.owners tid = true → tid = 2 := by
  obtain ⟨s, hRun⟩ : ∃ s, (machine Nat).run init handover = some s := ⟨_, rfl⟩
  have hOwner : s.owners 2 = true := by
    cases hRun
    rfl
  obtain ⟨hAlone, hFlag⟩ := mutual_exclusion ⟨handover, hRun⟩
  exact ⟨s, hRun, hFlag.mpr ⟨2, hOwner⟩, fun tid hTid => hAlone tid 2 hTid hOwner⟩

end SpinLock
end HyCAN
