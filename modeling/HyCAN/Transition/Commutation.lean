import Mathlib.Data.Set.Basic
import Mathlib.Data.List.Perm.Basic

/-! Operations on a state with a result each, of which some can be taken in any order.
Operations that are local to different parts of the state can. -/
namespace Transition

universe u v w x

/-- What it is for two states to be the same in a part that some keys name. -/
structure Parts (Key : Type u) (State : Type v) where
  Same : Set Key → State → State → Prop
  refl : ∀ keys s, Same keys s s
  symm : ∀ {keys s t}, Same keys s t → Same keys t s
  trans : ∀ {keys s t u}, Same keys s t → Same keys t u → Same keys s u
  mono : ∀ {keys more s t}, keys ⊆ more → Same more s t → Same keys s t
  union : ∀ {keys more s t}, Same keys s t → Same more s t → Same (keys ∪ more) s t
  eq_of_univ : ∀ {s t}, Same Set.univ s t → s = t

variable {Key : Type u} {State : Type v} {Result : Type w}

/-- An operation that changes no other part, and of which the result and what it does to
its own part depend on nothing else. -/
structure Local (P : Parts Key State) (keys : Set Key) (op : State → Result × State) : Prop where
  frame : ∀ s, P.Same (keysᶜ) s (op s).2
  result : ∀ s t, P.Same keys s t → (op s).1 = (op t).1
  effect : ∀ s t, P.Same keys s t → P.Same keys (op s).2 (op t).2

/-- In both orders the results are the same, and so is what comes of it. -/
structure Commutes (f g : State → Result × State) : Prop where
  left : ∀ s, (f (g s).2).1 = (f s).1
  right : ∀ s, (g (f s).2).1 = (g s).1
  state : ∀ s, (f (g s).2).2 = (g (f s).2).2

variable {f g : State → Result × State}

theorem Commutes.symm (h : Commutes f g) : Commutes g f :=
  ⟨h.right, h.left, fun s => (h.state s).symm⟩

/-- Operations that change nothing. -/
theorem Commutes.of_unchanged (hLeft : ∀ s, (f s).2 = s) (hRight : ∀ s, (g s).2 = s) : Commutes f g where
  left s := by rw [hRight]
  right s := by rw [hLeft]
  state s := by rw [hLeft, hRight, hRight, hLeft]

theorem Local.commutes {P : Parts Key State} {keys more : Set Key} (hLeft : Local P keys f)
    (hRight : Local P more g) (hApart : ∀ key ∈ keys, key ∉ more) : Commutes f g := by
  have hKeys : keys ⊆ moreᶜ := fun key hKey hMore => hApart key hKey hMore
  have hMore : more ⊆ keysᶜ := fun key hMore hKey => hApart key hKey hMore
  have hOne s : P.Same keys s (g s).2 := P.mono hKeys (hRight.frame s)
  have hTwo s : P.Same more s (f s).2 := P.mono hMore (hLeft.frame s)
  refine ⟨fun s => (hLeft.result _ _ (hOne s)).symm, fun s => (hRight.result _ _ (hTwo s)).symm, ?_⟩
  intro s
  apply P.eq_of_univ
  -- the part of the one, that of the other, and the rest
  have hOwn : P.Same keys (f (g s).2).2 (g (f s).2).2 :=
    P.trans (P.symm (hLeft.effect _ _ (hOne s))) (P.mono hKeys (hRight.frame (f s).2))
  have hOther : P.Same more (f (g s).2).2 (g (f s).2).2 :=
    P.trans (P.symm (P.mono hMore (hLeft.frame (g s).2))) (hRight.effect _ _ (hTwo s))
  have hRest : P.Same (keysᶜ ∩ moreᶜ) (f (g s).2).2 (g (f s).2).2 := by
    have hFirst : P.Same (keysᶜ ∩ moreᶜ) s (f (g s).2).2 :=
      P.trans (P.mono Set.inter_subset_right (hRight.frame s))
        (P.mono Set.inter_subset_left (hLeft.frame (g s).2))
    have hSecond : P.Same (keysᶜ ∩ moreᶜ) s (g (f s).2).2 :=
      P.trans (P.mono Set.inter_subset_left (hLeft.frame s))
        (P.mono Set.inter_subset_right (hRight.frame (f s).2))
    exact P.trans (P.symm hFirst) hSecond
  have hAll : (Set.univ : Set Key) ⊆ keys ∪ more ∪ (keysᶜ ∩ moreᶜ) := by
    intro key _
    by_cases hKey : key ∈ keys
    · exact .inl (.inl hKey)
    · by_cases hOtherKey : key ∈ more
      · exact .inl (.inr hOtherKey)
      · exact .inr ⟨hKey, hOtherKey⟩
  exact P.mono hAll (P.union (P.union hOwn hOther) hRest)

section Performing

variable {Op : Type x} (perform : Op → State → Result × State)

/-- The operations one after the other, each with its result, and what comes of them. -/
def performAll : List Op → State → List (Op × Result) × State
  | [], s => ([], s)
  | op :: rest, s =>
    let done := perform op s
    let later := performAll rest done.2
    ((op, done.1) :: later.1, later.2)

/-- Operations that commute with each other have the same results in any order, and the
same comes of them. -/
theorem performAll_perm {ops others : List Op} (hPerm : ops.Perm others)
    (h : ops.Pairwise fun op other => Commutes (perform op) (perform other)) (s : State) :
    (performAll perform ops s).1.Perm (performAll perform others s).1 ∧
      (performAll perform ops s).2 = (performAll perform others s).2 := by
  induction hPerm generalizing s with
  | nil => exact ⟨.nil, rfl⟩
  | cons op _ ih =>
      obtain ⟨hResults, hState⟩ := ih (List.pairwise_cons.mp h).2 (perform op s).2
      exact ⟨hResults.cons _, hState⟩
  | swap first second rest =>
      obtain ⟨hHead, _⟩ := List.pairwise_cons.mp h
      have hCommutes := hHead first (by simp)
      simp only [performAll, hCommutes.left, hCommutes.right, hCommutes.state]
      exact ⟨.swap _ _ _, trivial⟩
  | trans hFirst _ ihFirst ihSecond =>
      obtain ⟨hResults, hState⟩ := ihFirst h s
      obtain ⟨hLater, hLast⟩ := ihSecond (hFirst.pairwise h Commutes.symm) s
      exact ⟨hResults.trans hLater, hState.trans hLast⟩

end Performing

end Transition
