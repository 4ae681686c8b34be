import HyCAN.Transition.Program

/-! Runs of programs with whatever faults their calls take, and refinement: each run of
a program does to the state what its specification allows on the abstract state. -/
namespace Transition

universe u v w

namespace Program

variable {Call : Type u} {Answer : Call → Type v} {Result Other State Fault Abstract : Type w}
  {handle : Handler Answer State Fault}

/-- Some faults lead from the state to the result and the state after it. -/
def Runs (handle : Handler Answer State Fault) (program : Program Answer Result) (before : State)
    (result : Result) (after : State) : Prop :=
  ∃ faults, program.run handle faults before = (result, after)

@[simp] theorem runs_done_iff [Nonempty Fault] {value result : Result} {before after : State} :
    (done value).Runs handle before result after ↔ value = result ∧ before = after := by
  constructor
  · rintro ⟨_, hRun⟩
    exact Prod.mk.inj hRun
  · rintro ⟨rfl, rfl⟩
    exact ⟨fun _ => Classical.arbitrary Fault, rfl⟩

theorem runs_ask_iff {call : Call} {next : Answer call → Program Answer Result} {before after : State}
    {result : Result} : (ask call next).Runs handle before result after ↔
      ∃ fault, (next (handle call fault before).1).Runs handle (handle call fault before).2 result after := by
  constructor
  · rintro ⟨faults, hRun⟩
    exact ⟨faults 0, fun k => faults (k + 1), hRun⟩
  · rintro ⟨fault, faults, hRun⟩
    -- the fault of the first call, and then those of the others
    exact ⟨fun | 0 => fault | k + 1 => faults k, hRun⟩

theorem runs_bind_iff [Nonempty Fault] {program : Program Answer Result}
    {rest : Result → Program Answer Other} {before after : State} {result : Other} :
    (program.bind rest).Runs handle before result after ↔
      ∃ value middle, program.Runs handle before value middle ∧
        (rest value).Runs handle middle result after := by
  induction program generalizing before with
  | done value => simp [bind]
  | ask call next ih =>
      simp only [bind, runs_ask_iff, ih]
      constructor
      · rintro ⟨fault, value, middle, hFirst, hRest⟩
        exact ⟨value, middle, ⟨fault, hFirst⟩, hRest⟩
      · rintro ⟨value, middle, ⟨fault, hFirst⟩, hRest⟩
        exact ⟨fault, value, middle, hFirst, hRest⟩

/-- One program, alone on the state, gets to be the other by having calls answered. -/
inductive Advances (handle : Handler Answer State Fault) (program : Program Answer Result)
    (before : State) : Program Answer Result → State → Prop where
  | start : Advances handle program before program before
  | answer {call : Call} {next : Answer call → Program Answer Result} {middle : State}
      (hBefore : Advances handle program before (.ask call next) middle) (fault : Fault) :
      Advances handle program before (next (handle call fault middle).1) (handle call fault middle).2

/-- What is left to run completes what has been run. -/
theorem Advances.runs {program left : Program Answer Result} {before middle after : State}
    {result : Result} (h : Advances handle program before left middle)
    (hLeft : left.Runs handle middle result after) : program.Runs handle before result after := by
  induction h with
  | start => exact hLeft
  | answer _ fault ih => exact ih (runs_ask_iff.mpr ⟨fault, hLeft⟩)

/-- Every run of the program from a state of the relation does what the specification
allows, and ends in a state of the relation. -/
def Refines (handle : Handler Answer State Fault) (R : State → Abstract → Prop)
    (program : Program Answer Result) (spec : Abstract → Result → Abstract → Prop) : Prop :=
  ∀ before abstract result after, R before abstract → program.Runs handle before result after →
    ∃ final, spec abstract result final ∧ R after final

end Program
end Transition
