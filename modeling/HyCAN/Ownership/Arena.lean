import Mathlib.Logic.Function.Basic
import Mathlib.Tactic.SplitIfs

/-! Objects behind pointers. No pointer is given out twice, so one to an object that was
released never comes to be one to a later object; and 0 is the pointer to nothing. -/
namespace Ownership

universe u

structure Arena (Object : Type u) where
  objects : Nat → Option Object
  next : Nat
  null : 0 < next
  fresh : ∀ p, next ≤ p → objects p = none

namespace Arena

variable {Object : Type u} (arena : Arena Object)

def empty : Arena Object := ⟨fun _ => none, 1, Nat.one_pos, fun _ _ => rfl⟩

/-- A new object, behind the pointer `next`. -/
def alloc (object : Object) : Arena Object where
  objects := Function.update arena.objects arena.next (some object)
  next := arena.next + 1
  null := Nat.succ_pos _
  fresh p hFree := by
    rw [Function.update_of_ne (by omega)]
    exact arena.fresh p (by omega)

def release (p : Nat) : Arena Object where
  objects := Function.update arena.objects p none
  next := arena.next
  null := arena.null
  fresh q hFree := by
    by_cases hSame : q = p
    · rw [hSame, Function.update_self]
    · rw [Function.update_of_ne hSame]
      exact arena.fresh q hFree

/-- Another content for a live object. -/
def write (p : Nat) (object : Object) : Arena Object where
  objects := if (arena.objects p).isSome then Function.update arena.objects p (some object) else arena.objects
  next := arena.next
  null := arena.null
  fresh q hFree := by
    split_ifs with hLive
    · rw [Function.update_of_ne, arena.fresh q hFree]
      rintro rfl
      simp [arena.fresh q hFree] at hLive
    · exact arena.fresh q hFree

variable {arena}

@[simp] theorem objects_alloc (object : Object) :
    (arena.alloc object).objects = Function.update arena.objects arena.next (some object) := rfl

@[simp] theorem objects_release (p : Nat) :
    (arena.release p).objects = Function.update arena.objects p none := rfl

theorem objects_write {p : Nat} {old : Object} (hLive : arena.objects p = some old) (object : Object) :
    (arena.write p object).objects = Function.update arena.objects p (some object) := by
  simp [write, hLive]

theorem objects_next : arena.objects arena.next = none :=
  arena.fresh _ (Nat.le_refl _)

end Arena
end Ownership
