import HyCAN.Interface.SpinLock
import HyCAN.Transition.Ranking

/-! A free `SpinLock` does not stay free while threads try to get it. -/
namespace HyCAN.SpinLock

open Transition

variable {Tid : Type} [DecidableEq Tid] {s t : SpinLock Tid} {tid : Tid}

/-- The loads that are between a thread and its `exchange`, while `lock_` is false. -/
def loadsLeft : SpinPc → Nat
  | .spinning | .testing => 1
  | .idle | .exchanging | .trying | .storing => 0

/-- An atomic operation of the thread. -/
def price (tid : Tid) : Action Tid → Nat
  | .atomic other => if other = tid then 1 else 0
  | .lock _ | .tryLock _ | .unlock _ => 0

/-- `try_lock` begins with a load. -/
def allowance (tid : Tid) : Action Tid → Nat
  | .tryLock other => if other = tid then 1 else 0
  | .lock _ | .unlock _ | .atomic _ => 0

theorem lock_exchange (s : SpinLock Tid) (tid : Tid) (failed : SpinPc) : (s.exchange tid failed).lock = true := by
  unfold exchange
  split_ifs <;> rfl

theorem loadsLeft_goto (s : SpinLock Tid) (tid other : Tid) (pc : SpinPc) :
    loadsLeft ((s.goto other pc).pcs tid) ≤ loadsLeft (s.pcs tid) + (if other = tid then loadsLeft pc else 0) := by
  rcases eq_or_ne other tid with rfl | hNe
  · simp [goto]
  · simp [goto, hNe.symm]

/-- Where the lock is free before and after, no `exchange` and no `store` has happened. -/
theorem atomicStep_free {other : Tid} (hStores : s.StoresOwn) (hOwners : ∀ tid, s.owners tid = false)
    (hFree : s.lock = false) (hAfter : t.lock = false) (hStep : s.atomicStep other = some t) :
    ∃ pc, t = s.goto other pc ∧ loadsLeft pc + 1 = loadsLeft (s.pcs other) := by
  unfold atomicStep at hStep
  cases hPc : s.pcs other with
  | idle => simp [hPc] at hStep
  | exchanging | trying =>
      rw [hPc] at hStep
      rw [← Option.some.inj hStep, lock_exchange] at hAfter
      cases hAfter
  | spinning | testing =>
      rw [hPc] at hStep
      refine ⟨_, (Option.some.inj hStep).symm, ?_⟩
      simp [hFree, loadsLeft]
  | storing =>
      have hOwner := hStores other hPc
      rw [hOwners other] at hOwner
      cases hOwner

/-- A thread pays for its atomic operations with the loads that it has left. -/
theorem ranked (tid : Tid) : (machine Tid).Ranked
    (fun s => s.lock = false ∧ s.StoresOwn ∧ ∀ tid, s.owners tid = false) (fun s => loadsLeft (s.pcs tid))
    (price tid) (allowance tid) := by
  intro s action t hBefore hAfter hStep
  obtain ⟨hFree, hStores, hOwners⟩ := hBefore
  change s.step action = some t at hStep
  cases action with
  | lock other | unlock other =>
      simp only [step] at hStep
      split_ifs at hStep
      have hLoads := loadsLeft_goto s tid other
      rw [← Option.some.inj hStep]
      first
        | exact (hLoads .exchanging).trans (by simp [loadsLeft, allowance])
        | exact (hLoads .storing).trans (by simp [loadsLeft, allowance])
  | tryLock other =>
      simp only [step] at hStep
      split_ifs at hStep
      rw [← Option.some.inj hStep]
      exact loadsLeft_goto s tid other .testing
  | atomic other =>
      obtain ⟨pc, rfl, hLoads⟩ := atomicStep_free hStores hOwners hFree hAfter.1 hStep
      rcases eq_or_ne other tid with rfl | hNe
      · simp [goto, price, allowance, hLoads]
      · simp [goto, price, allowance, hNe, hNe.symm]

/-- From any reachable state, in any run in whose states nobody has the lock: no thread makes more
than one atomic operation, besides one for each of its calls of `try_lock`. By the next one,
somebody has had the lock. -/
theorem tries_le (hReachable : (machine Tid).Reachable init s) {actions : List (Action Tid)}
    (hRun : (machine Tid).run s actions = some t)
    (hFree : ∀ u, (machine Tid).Passes s actions u → u.lock = false) (tid : Tid) :
    (actions.map (price tid)).sum ≤ 1 + (actions.map (allowance tid)).sum := by
  have hHolds : ∀ u, (machine Tid).Passes s actions u →
      u.lock = false ∧ u.StoresOwn ∧ ∀ tid, u.owners tid = false := by
    intro u hPasses
    obtain ⟨front, hFront⟩ := hReachable
    obtain ⟨back, hBack⟩ := hPasses.reachable
    have hReached : (machine Tid).Reachable init u :=
      ⟨front ++ back, by rw [Machine.run_append, hFront]; exact hBack⟩
    obtain ⟨hStores, hExclusive, _⟩ := kept_of_reachable hReached
    refine ⟨hFree u hPasses, hStores, ?_⟩
    intro other
    by_contra hOwner
    have hInside : u.owners other = true := by simpa using hOwner
    have hLocked := hExclusive.held ⟨other, hInside⟩
    exact Bool.false_ne_true ((hFree u hPasses).symm.trans hLocked)
  have hPaid := (ranked tid).run_le hRun hHolds
  have hLoads : loadsLeft (s.pcs tid) ≤ 1 := by
    cases s.pcs tid <;> decide
  omega

/-- The first thread has cleared the flag, and the second spins. -/
theorem tries_le_spinning : ∃ s t : SpinLock Nat,
    (machine Nat).run init [.lock 1, .atomic 1, .lock 2, .atomic 2, .unlock 1, .atomic 1] = some s ∧
      (machine Nat).run s [.atomic 2] = some t ∧
      (∀ u, (machine Nat).Passes s [.atomic 2] u → u.lock = false) ∧
      ([Action.atomic 2].map (price 2)).sum ≤ 1 + ([Action.atomic 2].map (allowance 2)).sum := by
  obtain ⟨s, hBefore⟩ : ∃ s, (machine Nat).run init
      [.lock 1, .atomic 1, .lock 2, .atomic 2, .unlock 1, .atomic 1] = some s := ⟨_, rfl⟩
  obtain ⟨t, hRun⟩ : ∃ t, (machine Nat).run s [.atomic 2] = some t := by
    cases hBefore
    exact ⟨_, rfl⟩
  have hFree : ∀ u, (machine Nat).Passes s [.atomic 2] u → u.lock = false := by
    intro u hPasses
    rcases Machine.passes_cons_iff.mp hPasses with rfl | ⟨next, hStep, hRest⟩
    · cases hBefore
      rfl
    · rw [Machine.passes_nil_iff.mp hRest]
      cases hBefore
      cases hStep
      rfl
  exact ⟨s, t, hBefore, hRun, hFree, tries_le ⟨_, hBefore⟩ hRun hFree 2⟩

end HyCAN.SpinLock
