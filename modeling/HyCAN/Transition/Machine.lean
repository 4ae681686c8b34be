import Mathlib.Data.List.Induction

/-! Deterministic machines whose actions may be disabled. Interleavings are
action lists: each thread owns some of the actions, and a run is any order in
which they were all enabled. Safety properties speak about the states a run
passes through, and conditions on inputs speak about the steps it takes. -/
namespace Transition

universe u v

/-- An action that is not enabled in a state has no result there. -/
structure Machine (State : Type u) (Action : Type v) where
  step : State → Action → Option State

namespace Machine

variable {State : Type u} {Action : Type v} (M : Machine State Action)

/-- Take the actions in order, from one state, as long as all are enabled. -/
def run : State → List Action → Option State
  | s, [] => some s
  | s, a :: rest => (M.step s a).bind fun t => run t rest

/-- Some prefix of the action list leads from `start` to `s`. -/
def Passes (start : State) (actions : List Action) (s : State) : Prop :=
  ∃ front back, actions = front ++ back ∧ M.run start front = some s

/-- The action list takes `a` in the state `s`, and the result is `t`. -/
def Takes (start : State) (actions : List Action) (s : State) (a : Action) (t : State) : Prop :=
  ∃ front back, actions = front ++ a :: back ∧ M.run start front = some s ∧ M.step s a = some t

def Reachable (start s : State) : Prop :=
  ∃ actions, M.run start actions = some s

/-- Some run leads from `start` to `s` whose steps all meet the condition. -/
inductive ReachableBy (allows : State → Action → Prop) (start : State) : State → Prop where
  | start : ReachableBy allows start start
  | step {s t : State} {a : Action} (hBefore : ReachableBy allows start s) (hAllows : allows s a)
      (hStep : M.step s a = some t) : ReachableBy allows start t

@[simp] theorem run_nil (s : State) : M.run s [] = some s := rfl

@[simp] theorem run_cons (s : State) (a : Action) (rest : List Action) :
    M.run s (a :: rest) = (M.step s a).bind fun t => M.run t rest := rfl

theorem run_append (s : State) (front back : List Action) :
    M.run s (front ++ back) = (M.run s front).bind fun t => M.run t back := by
  induction front generalizing s with
  | nil => rfl
  | cons a rest ih => simp [ih, Option.bind_assoc]

/-- A run that ends in a last action splits at the state before it. -/
theorem run_concat_eq_some {s u : State} {front : List Action} {a : Action} :
    M.run s (front ++ [a]) = some u ↔ ∃ t, M.run s front = some t ∧ M.step t a = some u := by
  rw [run_append]
  simp [Option.bind_eq_some_iff]

/-- A run that ends where a step does not meet the condition. -/
def runBy (allows : State → Action → Prop) [∀ s a, Decidable (allows s a)] :
    State → List Action → Option State
  | s, [] => some s
  | s, a :: rest => if allows s a then (M.step s a).bind fun t => runBy allows t rest else none

variable {M} {start : State} {actions : List Action}

theorem passes_start : M.Passes start actions start :=
  ⟨[], actions, rfl, rfl⟩

theorem passes_nil_iff {s : State} : M.Passes start [] s ↔ s = start := by
  constructor
  · rintro ⟨front, back, hActions, hRun⟩
    have hFront : front = [] := (List.append_eq_nil_iff.mp hActions.symm).1
    rw [hFront, run_nil, Option.some.injEq] at hRun
    exact hRun.symm
  · intro hSame
    exact hSame ▸ passes_start

theorem passes_cons_iff {a : Action} {s : State} :
    M.Passes start (a :: actions) s ↔
      s = start ∨ ∃ next, M.step start a = some next ∧ M.Passes next actions s := by
  constructor
  · rintro ⟨front, back, hActions, hRun⟩
    cases front with
    | nil => exact .inl (Option.some.inj hRun).symm
    | cons b rest =>
        obtain ⟨rfl, rfl⟩ := List.cons.inj hActions
        rw [run_cons, Option.bind_eq_some_iff] at hRun
        obtain ⟨next, hStep, hRest⟩ := hRun
        exact .inr ⟨next, hStep, rest, back, rfl, hRest⟩
  · rintro (hSame | ⟨next, hStep, front, back, hActions, hRun⟩)
    · exact hSame ▸ passes_start
    · refine ⟨a :: front, back, by rw [hActions, List.cons_append], ?_⟩
      rw [run_cons, hStep]
      exact hRun

theorem Passes.of_run {s : State} (hRun : M.run start actions = some s) :
    M.Passes start actions s :=
  ⟨actions, [], by simp, hRun⟩

theorem Passes.reachable {s : State} (h : M.Passes start actions s) : M.Reachable start s := by
  obtain ⟨front, _, _, hRun⟩ := h
  exact ⟨front, hRun⟩

theorem Takes.source {s t : State} {a : Action} (h : M.Takes start actions s a t) :
    M.Passes start actions s := by
  obtain ⟨front, back, hActions, hRun, _⟩ := h
  exact ⟨front, a :: back, hActions, hRun⟩

theorem Takes.target {s t : State} {a : Action} (h : M.Takes start actions s a t) :
    M.Passes start actions t := by
  obtain ⟨front, back, hActions, hRun, hStep⟩ := h
  refine ⟨front ++ [a], back, by simp [hActions], ?_⟩
  exact (M.run_concat_eq_some).mpr ⟨s, hRun, hStep⟩

theorem Takes.step {s t : State} {a : Action} (h : M.Takes start actions s a t) :
    M.step s a = some t := by
  obtain ⟨_, _, _, _, hStep⟩ := h
  exact hStep

theorem Takes.mem {s t : State} {a : Action} (h : M.Takes start actions s a t) : a ∈ actions := by
  obtain ⟨front, back, hActions, _⟩ := h
  simp [hActions]

/-- What holds at the start and is kept by every step the run takes holds in
every state it passes. -/
theorem Passes.induction {P : State → Prop} (hStart : P start)
    (hStep : ∀ s a t, M.Takes start actions s a t → P s → P t)
    {t : State} (h : M.Passes start actions t) : P t := by
  obtain ⟨front, back, hActions, hRun⟩ := h
  induction front using List.reverseRecOn generalizing back t with
  | nil =>
      rw [run_nil, Option.some.injEq] at hRun
      exact hRun ▸ hStart
  | append_singleton front a ih =>
      obtain ⟨s, hFront, hLast⟩ := (M.run_concat_eq_some).mp hRun
      have hSplit : actions = front ++ a :: back := by simp [hActions]
      exact hStep s a t ⟨front, back, hSplit, hFront, hLast⟩ (ih (a :: back) hSplit hFront)

/-- An inductive invariant, for runs whose actions are all allowed. -/
theorem Passes.invariant {A : Action → Prop} {P : State → Prop}
    (hAllowed : ∀ a ∈ actions, A a) (hStart : P start)
    (hStep : ∀ s a t, A a → P s → M.step s a = some t → P t)
    {t : State} (h : M.Passes start actions t) : P t :=
  h.induction hStart fun s a t hTakes hP => hStep s a t (hAllowed a hTakes.mem) hP hTakes.step

theorem Reachable.invariant {P : State → Prop} (hStart : P start)
    (hStep : ∀ s a t, P s → M.step s a = some t → P t)
    {t : State} (h : M.Reachable start t) : P t := by
  obtain ⟨actions, hRun⟩ := h
  exact (Passes.of_run hRun).induction hStart fun s a t hTakes hP => hStep s a t hP hTakes.step

theorem ReachableBy.reachable {allows : State → Action → Prop} {s : State}
    (h : M.ReachableBy allows start s) : M.Reachable start s := by
  induction h with
  | start => exact ⟨[], rfl⟩
  | step _ _ hStep ih =>
      obtain ⟨front, hFront⟩ := ih
      exact ⟨front ++ [_], M.run_concat_eq_some.mpr ⟨_, hFront, hStep⟩⟩

theorem ReachableBy.runBy {allows : State → Action → Prop} [∀ s a, Decidable (allows s a)] {s t : State}
    (h : M.ReachableBy allows start s) (hRun : M.runBy allows s actions = some t) :
    M.ReachableBy allows start t := by
  induction actions generalizing s with
  | nil => exact Option.some.inj hRun ▸ h
  | cons a rest ih =>
      rw [Machine.runBy] at hRun
      split_ifs at hRun with hAllows
      obtain ⟨next, hStep, hRest⟩ := Option.bind_eq_some_iff.mp hRun
      exact ih (h.step hAllows hStep) hRest

theorem ReachableBy.invariant {allows : State → Action → Prop} {P : State → Prop} (hStart : P start)
    (hStep : ∀ s a t, allows s a → P s → M.step s a = some t → P t) {t : State}
    (h : M.ReachableBy allows start t) : P t := by
  induction h with
  | start => exact hStart
  | step _ hAllows hTaken ih => exact hStep _ _ _ hAllows ih hTaken

/-- Where what can be seen of each step is a run of the other machine, so is what can be
seen of every run. -/
theorem Reachable.simulated {Seen : Type u} {SeenAction : Type v} {N : Machine Seen SeenAction}
    {first : Seen} {t : State} (h : M.Reachable start t) (view : State → Seen)
    (hStart : N.Reachable first (view start))
    (hStep : ∀ s a t, M.step s a = some t → ∃ actions, N.run (view s) actions = some (view t)) :
    N.Reachable first (view t) := by
  refine h.invariant (P := fun s => N.Reachable first (view s)) hStart ?_
  rintro s a t ⟨front, hFront⟩ hTaken
  obtain ⟨back, hBack⟩ := hStep s a t hTaken
  refine ⟨front ++ back, ?_⟩
  rw [run_append, hFront]
  exact hBack

/-- Where a step keeps `P` exactly if it meets the guard, a run keeps `P` in all
its states exactly if all its steps meet the guard. -/
theorem passes_iff_takes {P : State → Prop} {G : State → Action → Prop} (hStart : P start)
    (hExact : ∀ s a t, M.Takes start actions s a t → P s → (P t ↔ G s a)) :
    (∀ t, M.Passes start actions t → P t) ↔
      ∀ s a t, M.Takes start actions s a t → G s a := by
  constructor
  · intro hAll s a t hTakes
    exact (hExact s a t hTakes (hAll s hTakes.source)).mp (hAll t hTakes.target)
  · intro hGuard t hPasses
    exact hPasses.induction hStart fun s a t hTakes hP =>
      (hExact s a t hTakes hP).mpr (hGuard s a t hTakes)

end Machine
end Transition
