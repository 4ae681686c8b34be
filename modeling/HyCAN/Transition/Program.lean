import HyCAN.Transition.Machine
import Mathlib.Logic.Function.Basic

/-! Programs that make calls and go on with the answers. A handler answers them on
a state, and each call takes one fault, whatever can go wrong in it. Several
threads on one state are a machine: an action is the next call of one thread. -/
namespace Transition

universe u v w

inductive Program {Call : Type u} (Answer : Call → Type v) (Result : Type w) where
  | done (result : Result)
  | ask (call : Call) (next : Answer call → Program Answer Result)

/-- How a call is answered, and what it leaves. -/
abbrev Handler {Call : Type u} (Answer : Call → Type v) (State Fault : Type w) :=
  (call : Call) → Fault → State → Answer call × State

namespace Program

variable {Call : Type u} {Answer : Call → Type v} {Result Other State Fault : Type w}

def bind : Program Answer Result → (Result → Program Answer Other) → Program Answer Other
  | .done result, rest => rest result
  | .ask call next, rest => .ask call fun answer => (next answer).bind rest

/-- The program alone on the state, with a fault for each of its calls in turn. -/
def run (handle : Handler Answer State Fault) :
    Program Answer Result → (Nat → Fault) → State → Result × State
  | .done result, _, state => (result, state)
  | .ask call next, faults, state =>
    let answered := handle call (faults 0) state
    (next answered.1).run handle (fun k => faults (k + 1)) answered.2

/-- The run of a program goes on with that of its continuation, on the faults that are
left. -/
theorem run_bind (Other : Type w) (handle : Handler Answer State Fault) (program : Program Answer Result)
    (faults : Nat → Fault) (state : State) :
    ∃ used, ∀ rest : Result → Program Answer Other, (program.bind rest).run handle faults state =
      (rest (program.run handle faults state).1).run handle (fun k => faults (k + used))
        (program.run handle faults state).2 := by
  induction program generalizing faults state with
  | done result => exact ⟨0, fun rest => rfl⟩
  | ask call next ih =>
      obtain ⟨used, hRest⟩ := ih (handle call (faults 0) state).1 (fun k => faults (k + 1))
        (handle call (faults 0) state).2
      exact ⟨used + 1, hRest⟩

/-- At most so many calls, whatever the answers. -/
inductive Bounded : Program Answer Result → Nat → Prop where
  | done (result : Result) (bound : Nat) : Bounded (.done result) bound
  | ask (call : Call) (next : Answer call → Program Answer Result) (bound : Nat)
      (h : ∀ answer, Bounded (next answer) bound) : Bounded (.ask call next) (bound + 1)

theorem Bounded.add {program : Program Answer Result} {bound : Nat} (h : program.Bounded bound)
    (more : Nat) : program.Bounded (bound + more) := by
  induction h with
  | done result bound => exact .done _ _
  | ask call next bound _ ih =>
      rw [Nat.add_right_comm]
      exact .ask _ _ _ ih

/-- The bounds of a program and of all its continuations add up. -/
theorem Bounded.bind {program : Program Answer Result} {rest : Result → Program Answer Other}
    {first second : Nat} (hFirst : program.Bounded first) (hRest : ∀ result, (rest result).Bounded second) :
    (program.bind rest).Bounded (second + first) := by
  induction hFirst with
  | done result bound => exact (hRest result).add bound
  | ask call next bound _ ih => exact .ask _ _ _ ih

/-- The program makes no other calls than these. -/
inductive Uses (allowed : Call → Prop) : Program Answer Result → Prop where
  | done (result : Result) : Uses allowed (.done result)
  | ask {call : Call} {next : Answer call → Program Answer Result} (hCall : allowed call)
      (hNext : ∀ answer, Uses allowed (next answer)) : Uses allowed (.ask call next)

theorem Uses.bind {allowed : Call → Prop} {program : Program Answer Result}
    {rest : Result → Program Answer Other} (h : program.Uses allowed)
    (hRest : ∀ result, (rest result).Uses allowed) : (program.bind rest).Uses allowed := by
  induction h with
  | done result => exact hRest result
  | ask hCall _ ih => exact .ask hCall ih

/-- What the allowed calls keep is kept. -/
theorem Uses.run {allowed : Call → Prop} (handle : Handler Answer State Fault)
    {P : State → Prop} {program : Program Answer Result} (h : program.Uses allowed)
    (hKept : ∀ call fault state, allowed call → P state → P (handle call fault state).2)
    (faults : Nat → Fault) {state : State} (hState : P state) :
    P (program.run handle faults state).2 := by
  induction h generalizing faults state with
  | done result => exact hState
  | ask hCall _ ih => exact ih _ _ (hKept _ (faults 0) state hCall hState)

theorem uses_any (program : Program Answer Result) : program.Uses fun _ => True := by
  induction program with
  | done result => exact .done result
  | ask call next ih => exact .ask trivial ih

/-- An assertion that no step of the kind makes false. -/
def Stable (guarantee : State → State → Prop) (P : State → Prop) : Prop :=
  ∀ before after, guarantee before after → P before → P after

/-- A proof outline: an assertion at each point of the program, such that every call
does what is guaranteed to the other threads and none of their calls, doing the same,
makes the assertion false. -/
inductive Outline (handle : Handler Answer State Fault) (guarantee : State → State → Prop)
    (post : Result → State → Prop) : Program Answer Result → (State → Prop) → Prop where
  | done {result : Result} {pre : State → Prop} (hPost : ∀ state, pre state → post result state) :
      Outline handle guarantee post (.done result) pre
  | ask {call : Call} {next : Answer call → Program Answer Result} {pre : State → Prop}
      (after : Answer call → State → Prop) (hStable : ∀ answer, Stable guarantee (after answer))
      (hCall : ∀ fault state, pre state → guarantee state (handle call fault state).2 ∧
        after (handle call fault state).1 (handle call fault state).2)
      (hNext : ∀ answer, Outline handle guarantee post (next answer) (after answer)) :
      Outline handle guarantee post (.ask call next) pre

/-- A point that is never reached needs no outline. -/
theorem Outline.of_false {handle : Handler Answer State Fault} {guarantee : State → State → Prop}
    {post : Result → State → Prop} (program : Program Answer Result) {pre : State → Prop}
    (hNever : ∀ state, ¬pre state) : Outline handle guarantee post program pre := by
  induction program generalizing pre with
  | done result => exact .done fun state hPre => absurd hPre (hNever state)
  | ask call next ih =>
      exact .ask (fun _ _ => False) (fun _ _ _ _ hFalse => hFalse)
        (fun _ state hPre => absurd hPre (hNever state)) fun answer => ih answer fun _ => id

theorem Outline.weaken {handle : Handler Answer State Fault} {guarantee : State → State → Prop}
    {post : Result → State → Prop} {program : Program Answer Result} {pre stronger : State → Prop}
    (h : Outline handle guarantee post program pre) (hPre : ∀ state, stronger state → pre state) :
    Outline handle guarantee post program stronger := by
  cases h with
  | done hPost => exact .done fun state hState => hPost state (hPre state hState)
  | ask after hStable hCall hNext =>
      exact .ask after hStable (fun fault state hState => hCall fault state (hPre state hState)) hNext

/-- The outline of a program goes on with those of its continuations. -/
theorem Outline.bind {handle : Handler Answer State Fault} {guarantee : State → State → Prop}
    {mid : Result → State → Prop} {post : Other → State → Prop} {program : Program Answer Result}
    {rest : Result → Program Answer Other} {pre : State → Prop}
    (h : Outline handle guarantee mid program pre)
    (hRest : ∀ result, Outline handle guarantee post (rest result) (mid result)) :
    Outline handle guarantee post (program.bind rest) pre := by
  induction h with
  | done hPost => exact (hRest _).weaken hPost
  | ask after hStable hCall _ ih => exact .ask after hStable hCall ih

/-- A program that runs alone keeps to its outline as well. -/
theorem Outline.run {handle : Handler Answer State Fault} {guarantee : State → State → Prop}
    {post : Result → State → Prop} {program : Program Answer Result} {pre : State → Prop}
    (h : Outline handle guarantee post program pre) (faults : Nat → Fault) {state : State}
    (hPre : pre state) :
    post (program.run handle faults state).1 (program.run handle faults state).2 := by
  induction h generalizing faults state with
  | done hPost => exact hPost state hPre
  | ask after _ hCall _ ih => exact ih _ _ (hCall (faults 0) state hPre).2

end Program

/-- Threads at their points of a program, and the state they share. -/
structure Pool {Call : Type u} (Answer : Call → Type v) (Tid Result State : Type w) where
  programs : Tid → Program Answer Result
  state : State

namespace Pool

variable {Call : Type u} {Answer : Call → Type v} {Tid Result State Fault : Type w} [DecidableEq Tid]
  (handle : Handler Answer State Fault)

/-- The thread's next call, answered. -/
def step (pool : Pool Answer Tid Result State) (action : Tid × Fault) :
    Option (Pool Answer Tid Result State) :=
  match pool.programs action.1 with
  | .done _ => none
  | .ask call next =>
    let answered := handle call action.2 pool.state
    some ⟨Function.update pool.programs action.1 (next answered.1), answered.2⟩

def machine : Machine (Pool Answer Tid Result State) (Tid × Fault) := ⟨step handle⟩

variable {handle} {pool after : Pool Answer Tid Result State} {action : Tid × Fault}

theorem step_eq_some_iff :
    step handle pool action = some after ↔ ∃ call next, pool.programs action.1 = .ask call next ∧
      after = ⟨Function.update pool.programs action.1 (next (handle call action.2 pool.state).1),
        (handle call action.2 pool.state).2⟩ := by
  unfold step
  cases hProgram : pool.programs action.1 with
  | done result => simp
  | ask call next =>
      constructor
      · intro hStep
        exact ⟨call, next, rfl, (Option.some.inj hStep).symm⟩
      · rintro ⟨call', next', hSame, rfl⟩
        cases hSame
        rfl

/-- A thread that is not done can always make its next call. -/
theorem step_isSome_iff : (step handle pool action).isSome ↔ ∀ result, pool.programs action.1 ≠ .done result := by
  unfold step
  cases pool.programs action.1 <;> simp

/-- What holds of each thread's point in its program and of the shared state, where a
call of one thread keeps it for that thread and disturbs it for no other. -/
theorem invariant {A : Tid → Program Answer Result → State → Prop}
    (hOwn : ∀ tid call next fault state, A tid (.ask call next) state →
      A tid (next (handle call fault state).1) (handle call fault state).2)
    (hOther : ∀ tid other program call next fault state, A tid program state →
      A other (.ask call next) state → A tid program (handle call fault state).2)
    {start pool : Pool Answer Tid Result State} (hStart : ∀ tid, A tid (start.programs tid) start.state)
    (h : (machine handle).Reachable start pool) (tid : Tid) : A tid (pool.programs tid) pool.state := by
  refine h.invariant (P := fun pool => ∀ tid, A tid (pool.programs tid) pool.state) hStart ?_ tid
  intro before action after hBefore hStep tid
  obtain ⟨call, next, hProgram, rfl⟩ := step_eq_some_iff.mp hStep
  have hAsked := hBefore action.1
  rw [hProgram] at hAsked
  by_cases hSame : tid = action.1
  · subst hSame
    simp only [Function.update_self]
    exact hOwn action.1 call next action.2 _ hAsked
  · simp only [Function.update_of_ne hSame]
    exact hOther tid action.1 _ call next action.2 _ (hBefore tid) hAsked

/-- Threads with outlines under one guarantee do not disturb each other: whichever is
done has its postcondition. -/
theorem outline {guarantee : State → State → Prop} {post : Tid → Result → State → Prop}
    {pre : Tid → State → Prop} {start pool : Pool Answer Tid Result State}
    (hOutline : ∀ tid, Program.Outline handle guarantee (post tid) (start.programs tid) (pre tid))
    (hStable : ∀ tid, Program.Stable guarantee (pre tid)) (hPre : ∀ tid, pre tid start.state)
    (h : (machine handle).Reachable start pool) {tid : Tid} {result : Result}
    (hDone : pool.programs tid = .done result) : post tid result pool.state := by
  have hAll := invariant (A := fun tid program state => ∃ P,
    Program.Outline handle guarantee (post tid) program P ∧ Program.Stable guarantee P ∧ P state)
    ?_ ?_ (fun tid => ⟨pre tid, hOutline tid, hStable tid, hPre tid⟩) h tid
  · obtain ⟨P, hProgram, _, hHolds⟩ := hAll
    rw [hDone] at hProgram
    cases hProgram with
    | done hPost => exact hPost _ hHolds
  · rintro tid call next fault state ⟨P, hProgram, _, hHolds⟩
    cases hProgram with
    | ask after hAfter hCall hNext =>
        exact ⟨_, hNext _, hAfter _, (hCall fault state hHolds).2⟩
  · rintro tid other program call next fault state ⟨P, hProgram, hKept, hHolds⟩ ⟨Q, hAsking, _, hAsked⟩
    cases hAsking with
    | ask after _ hCall _ => exact ⟨P, hProgram, hKept, hKept _ _ (hCall fault state hAsked).1 hHolds⟩

/-- With a bound on its program, a thread takes no more actions than that, and is done
after so many. -/
theorem count_le {start : Pool Answer Tid Result State} {tid : Tid} {bound : Nat}
    {actions : List (Tid × Fault)} (hBound : (start.programs tid).Bounded bound)
    (hRun : (machine handle).run start actions = some pool) :
    ∃ left, (pool.programs tid).Bounded left ∧ actions.countP (·.1 = tid) + left = bound := by
  induction actions generalizing start bound with
  | nil =>
      rw [Machine.run_nil, Option.some.injEq] at hRun
      exact ⟨bound, hRun ▸ hBound, by simp⟩
  | cons action rest ih =>
      rw [Machine.run_cons, Option.bind_eq_some_iff] at hRun
      obtain ⟨next, hStep, hRest⟩ := hRun
      obtain ⟨call, goOn, hProgram, rfl⟩ := step_eq_some_iff.mp hStep
      by_cases hSame : action.1 = tid
      · rw [hSame] at hProgram
        rw [hProgram] at hBound
        cases hBound with
        | ask _ _ bound hNext =>
            have hUpdated : (Function.update start.programs action.1
                (goOn (handle call action.2 start.state).1) tid).Bounded bound := by
              rw [hSame, Function.update_self]
              exact hNext _
            obtain ⟨left, hLeft, hCount⟩ := ih hUpdated hRest
            refine ⟨left, hLeft, ?_⟩
            rw [List.countP_cons_of_pos (by simpa using hSame)]
            omega
      · have hKept : (Function.update start.programs action.1
            (goOn (handle call action.2 start.state).1) tid).Bounded bound := by
          rw [Function.update_of_ne (Ne.symm hSame)]
          exact hBound
        obtain ⟨left, hLeft, hCount⟩ := ih hKept hRest
        refine ⟨left, hLeft, ?_⟩
        rw [List.countP_cons_of_neg (by simpa using hSame)]
        exact hCount

end Pool
end Transition
