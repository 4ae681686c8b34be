import Mathlib.Logic.Relation

/-! Threads that wait for a lock, or in a join for the end of another thread. Who
waits for whom is a relation on the threads, and a deadlock is a cycle of it. -/
namespace Transition

universe u v

inductive Blocker (Thread : Type u) (Lock : Type v) where
  | lock (l : Lock)
  | join (other : Thread)

/-- What each thread is blocked on, who holds the locks, and which threads have ended. -/
structure WaitGraph (Thread : Type u) (Lock : Type v) where
  blockedOn : Thread → Option (Blocker Thread Lock)
  owner : Lock → Option Thread
  ended : Thread → Prop

namespace WaitGraph

variable {Thread : Type u} {Lock : Type v} (g : WaitGraph Thread Lock)

inductive WaitsFor : Thread → Thread → Prop where
  | lock {t holder : Thread} {l : Lock} (hBlocked : g.blockedOn t = some (.lock l))
      (hOwner : g.owner l = some holder) : WaitsFor t holder
  | join {t other : Thread} (hBlocked : g.blockedOn t = some (.join other))
      (hRunning : ¬g.ended other) : WaitsFor t other

def Deadlocked : Prop :=
  ∃ t, Relation.TransGen g.WaitsFor t t

variable {g}

/-- There is no cycle where every wait goes down in rank. -/
theorem not_deadlocked_of_rank (rank : Thread → Nat)
    (hRank : ∀ t other, g.WaitsFor t other → rank other < rank t) : ¬g.Deadlocked := by
  rintro ⟨t, hCycle⟩
  have hDown : ∀ a b, Relation.TransGen g.WaitsFor a b → rank b < rank a := by
    intro a b hPath
    induction hPath with
    | single hEdge => exact hRank _ _ hEdge
    | tail _ hEdge ih => exact Nat.lt_trans (hRank _ _ hEdge) ih
  exact Nat.lt_irrefl _ (hDown t t hCycle)

/-- Two threads that wait for each other. -/
theorem deadlocked_of_pair {t other : Thread} (h : g.WaitsFor t other) (hBack : g.WaitsFor other t) :
    g.Deadlocked :=
  ⟨t, .tail (.single h) hBack⟩

end WaitGraph
end Transition
