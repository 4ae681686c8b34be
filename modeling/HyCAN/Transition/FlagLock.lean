import Mathlib.Data.Set.Insert
import Mathlib.Data.Set.Subsingleton

/-! A lock that is one flag, seen from outside: the flag, and the set of holders
that are between their acquisition and their release. Entering needs the flag
clear and sets it. Leaving either clears it or leaks it. -/
namespace Transition

universe u

structure FlagLock (Holder : Type u) where
  held : Bool
  inside : Set Holder

/-- What one step does to a lock. -/
inductive LockEffect (Holder : Type u) where
  | keep
  | acquire (h : Holder)
  | release (h : Holder)
  | leak (h : Holder)

namespace FlagLock

variable {Holder : Type u}

inductive Step : LockEffect Holder → FlagLock Holder → FlagLock Holder → Prop where
  | keep (l : FlagLock Holder) : Step .keep l l
  | acquire {l : FlagLock Holder} {h : Holder} (hFree : l.held = false) :
      Step (.acquire h) l ⟨true, insert h l.inside⟩
  | release {l : FlagLock Holder} {h : Holder} (hInside : h ∈ l.inside) :
      Step (.release h) l ⟨false, l.inside \ {h}⟩
  | leak {l : FlagLock Holder} {h : Holder} (hInside : h ∈ l.inside) :
      Step (.leak h) l ⟨l.held, l.inside \ {h}⟩

/-- At most one holder is inside, and then the flag is set. -/
structure Exclusive (l : FlagLock Holder) : Prop where
  alone : l.inside.Subsingleton
  held : l.inside.Nonempty → l.held = true

/-- The flag is set only while some holder is inside. -/
def Disciplined (l : FlagLock Holder) : Prop :=
  l.held = true → l.inside.Nonempty

theorem Exclusive.inside_sdiff {l : FlagLock Holder} (h : l.Exclusive) {a : Holder}
    (ha : a ∈ l.inside) : l.inside \ {a} = ∅ := by
  apply Set.eq_empty_of_forall_notMem
  rintro b ⟨hb, hNe⟩
  exact hNe (h.alone hb ha)

theorem Exclusive.inside_empty {l : FlagLock Holder} (h : l.Exclusive) (hFree : l.held = false) :
    l.inside = ∅ := by
  rw [← Set.not_nonempty_iff_eq_empty]
  intro hInside
  simp [h.held hInside] at hFree

/-- Mutual exclusion survives every effect, leaks included. -/
theorem Step.exclusive {e : LockEffect Holder} {l l' : FlagLock Holder} (hStep : Step e l l')
    (h : l.Exclusive) : l'.Exclusive := by
  cases hStep with
  | keep => exact h
  | @acquire _ a hFree =>
      refine ⟨?_, fun _ => rfl⟩
      rw [h.inside_empty hFree, insert_empty_eq]
      exact Set.subsingleton_singleton
  | release hInside =>
      rw [h.inside_sdiff hInside]
      exact ⟨Set.subsingleton_empty, fun hNonempty => absurd hNonempty Set.not_nonempty_empty⟩
  | leak hInside =>
      rw [h.inside_sdiff hInside]
      exact ⟨Set.subsingleton_empty, fun hNonempty => absurd hNonempty Set.not_nonempty_empty⟩

/-- After a leak the flag stays set with nobody inside who could clear it. -/
theorem Step.not_disciplined {a : Holder} {l l' : FlagLock Holder} (hStep : Step (.leak a) l l')
    (h : l.Exclusive) : ¬l'.Disciplined := by
  cases hStep with
  | leak hInside => simp [Disciplined, h.inside_sdiff hInside, h.held ⟨a, hInside⟩]

/-- No other step breaks the discipline, or restores it. -/
theorem Step.disciplined_congr {e : LockEffect Holder} {l l' : FlagLock Holder} (hStep : Step e l l')
    (hNoLeak : ∀ a, e ≠ .leak a) : l'.Disciplined ↔ l.Disciplined := by
  cases hStep with
  | keep => rfl
  | acquire hFree => simp [Disciplined, hFree]
  | @release _ a hInside => exact iff_of_true (by simp [Disciplined]) fun _ => ⟨a, hInside⟩
  | @leak _ a => exact absurd rfl (hNoLeak a)

theorem Step.disciplined_iff {e : LockEffect Holder} {l l' : FlagLock Holder} (hStep : Step e l l')
    (h : l.Exclusive) (hDisciplined : l.Disciplined) :
    l'.Disciplined ↔ ∀ a, e ≠ .leak a := by
  constructor
  · rintro hLater a rfl
    exact hStep.not_disciplined h hLater
  · intro hNoLeak
    exact (hStep.disciplined_congr hNoLeak).mpr hDisciplined

/-- Without a leak, a holder that is no longer inside has cleared the flag. -/
theorem Step.free_of_left {e : LockEffect Holder} {l l' : FlagLock Holder} (hStep : Step e l l')
    (hNoLeak : ∀ a, e ≠ .leak a) {a : Holder} (hInside : a ∈ l.inside) (hLeft : a ∉ l'.inside) :
    l'.held = false := by
  cases hStep with
  | keep => exact absurd hInside hLeft
  | acquire => exact absurd (Set.mem_insert_of_mem _ hInside) hLeft
  | release => rfl
  | @leak _ b => exact absurd rfl (hNoLeak b)

end FlagLock
end Transition
