import Mathlib.Data.List.Induction

/-! Histories of a service: operations with their replies, one after the other, where each
reply and each next state is one that the service allows. -/
namespace Transition

universe u v w

variable {State : Type u} {Op : Type v} {Reply : Type w}

inductive History (allows : State → Op → Reply → State → Prop) (start : State) :
    List (Op × Reply) → State → Prop where
  | nil : History allows start [] start
  | snoc {s t : State} {op : Op} {reply : Reply} {done : List (Op × Reply)}
      (hBefore : History allows start done s) (hLast : allows s op reply t) :
      History allows start (done ++ [(op, reply)]) t

namespace History

variable {allows : State → Op → Reply → State → Prop} {start s t : State} {done : List (Op × Reply)}

theorem trans {later : List (Op × Reply)} (h : History allows start done s)
    (hLater : History allows s later t) : History allows start (done ++ later) t := by
  induction hLater with
  | nil => simpa using h
  | snoc _ hLast ih =>
      rw [← List.append_assoc]
      exact ih.snoc hLast

/-- A history is one after the other of any two parts of it. -/
theorem split {first second : List (Op × Reply)} (h : History allows start (first ++ second) t) :
    ∃ middle, History allows start first middle ∧ History allows middle second t := by
  generalize hDone : first ++ second = done at h
  induction h generalizing second with
  | nil =>
      obtain ⟨rfl, rfl⟩ := List.append_eq_nil_iff.mp hDone
      exact ⟨start, .nil, .nil⟩
  | @snoc s t op reply done hBefore hLast ih =>
      cases second using List.reverseRecOn with
      | nil =>
          rw [List.append_nil] at hDone
          exact ⟨t, hDone ▸ hBefore.snoc hLast, .nil⟩
      | append_singleton second last =>
          rw [← List.append_assoc] at hDone
          obtain ⟨hInit, hSame⟩ := List.append_inj' hDone rfl
          obtain ⟨middle, hFirst, hSecond⟩ := ih hInit
          exact ⟨middle, hFirst, List.cons.inj hSame |>.1 ▸ hSecond.snoc hLast⟩

theorem single_iff {op : Op} {reply : Reply} : History allows start [(op, reply)] t ↔ allows start op reply t := by
  constructor
  · intro h
    generalize hDone : [(op, reply)] = done at h
    cases h with
    | nil => cases hDone
    | @snoc s _ other given front hBefore hLast =>
        rw [← List.nil_append [(op, reply)]] at hDone
        obtain ⟨rfl, hSame⟩ := List.append_inj' hDone rfl
        obtain ⟨rfl, rfl⟩ := Prod.mk.inj (List.cons.inj hSame).1
        generalize hNone : [] = none at hBefore
        cases hBefore with
        | nil => exact hLast
        | snoc => simp at hNone
  · intro h
    exact .snoc .nil h

theorem cons_iff {op : Op} {reply : Reply} {later : List (Op × Reply)} :
    History allows start ((op, reply) :: later) t ↔
      ∃ middle, allows start op reply middle ∧ History allows middle later t := by
  constructor
  · intro h
    have hParts : History allows start ([(op, reply)] ++ later) t := h
    obtain ⟨middle, hFirst, hLater⟩ := hParts.split
    exact ⟨middle, single_iff.mp hFirst, hLater⟩
  · rintro ⟨middle, hFirst, hLater⟩
    exact (single_iff.mpr hFirst).trans hLater

/-- What all the operations of a history keep. -/
theorem kept {P : State → Prop} (h : History allows start done t) (hStart : P start)
    (hStep : ∀ op reply s t, (op, reply) ∈ done → allows s op reply t → P s → P t) : P t := by
  induction h with
  | nil => exact hStart
  | snoc _ hLast ih =>
      refine hStep _ _ _ _ (by simp) hLast (ih fun op reply s t hMem => hStep op reply s t ?_)
      simp [hMem]

end History
end Transition
