import HyCAN.Transition.Refinement

/-! Threads that make all their calls under one recursive mutex. Whatever order they
take their steps in, what they do is what they do one after the other. -/
namespace Transition

universe u v w

/-- A call of the program, or one on the mutex. -/
inductive Guarded (Call : Type u) where
  | lock
  | unlock
  | under (call : Call)

namespace Guarded

variable {Call : Type u} {Answer : Call → Type v} {Result Other State Fault : Type w}

abbrev Reply (Answer : Call → Type v) : Guarded Call → Type v
  | .lock | .unlock => PUnit
  | .under call => Answer call

/-- A thread that is alone never waits for the mutex. -/
def alone (handle : Handler Answer State Fault) : Handler (Reply Answer) State Fault
  | .lock, _, state | .unlock, _, state => (⟨⟩, state)
  | .under call, fault, state => handle call fault state

/-- The body in the scope of a lock guard. -/
def locked (body : Program (Reply Answer) Result) : Program (Reply Answer) Result :=
  .ask .lock fun _ => body.bind fun result => .ask .unlock fun _ => .done result

/-- A program at a point where it holds the mutex `depth` times. It makes its calls while
it holds the mutex, never holds it less than `base` times, and returns with `base`. -/
inductive Nested : Nat → Nat → Program (Reply Answer) Result → Prop where
  | done {base : Nat} (result : Result) : Nested base base (.done result)
  | lock {base depth : Nat} {next : Reply Answer .lock → Program (Reply Answer) Result}
      (hNext : Nested base (depth + 2) (next ⟨⟩)) : Nested base (depth + 1) (.ask .lock next)
  | unlock {base depth : Nat} {next : Reply Answer .unlock → Program (Reply Answer) Result}
      (hBase : base ≤ depth)
      (hNext : Nested base depth (next ⟨⟩)) : Nested base (depth + 1) (.ask .unlock next)
  | under {base depth : Nat} {call : Call} {next : Answer call → Program (Reply Answer) Result}
      (hNext : ∀ answer, Nested base (depth + 1) (next answer)) :
      Nested base (depth + 1) (.ask (.under call) next)

theorem Nested.bind {base lower depth : Nat} {program : Program (Reply Answer) Result}
    {rest : Result → Program (Reply Answer) Other} (h : Nested base depth program) (hLower : lower ≤ base)
    (hRest : ∀ result, Nested lower base (rest result)) : Nested lower depth (program.bind rest) := by
  induction h with
  | done result => exact hRest result
  | lock _ ih => exact .lock ih
  | unlock hBase _ ih => exact .unlock (Nat.le_trans hLower hBase) ih
  | under _ ih => exact .under ih

/-- A program for the inside of a lock guard: however often the mutex is held, it is held
as often afterwards. -/
def Balanced (program : Program (Reply Answer) Result) : Prop :=
  ∀ depth, Nested (depth + 1) (depth + 1) program

theorem Balanced.done (result : Result) : Balanced (.done result : Program (Reply Answer) Result) :=
  fun _ => .done result

theorem Balanced.under {call : Call} {next : Answer call → Program (Reply Answer) Result}
    (hNext : ∀ answer, Balanced (next answer)) : Balanced (.ask (.under call) next) :=
  fun depth => .under fun answer => hNext answer depth

theorem Balanced.bind {program : Program (Reply Answer) Result}
    {rest : Result → Program (Reply Answer) Other} (h : Balanced program)
    (hRest : ∀ result, Balanced (rest result)) : Balanced (program.bind rest) :=
  fun depth => (h depth).bind (Nat.le_refl _) fun result => hRest result depth

/-- Lock guards nest. -/
theorem Balanced.locked {body : Program (Reply Answer) Result} (h : Balanced body) :
    Balanced (locked body) :=
  fun depth => .lock ((h (depth + 1)).bind (Nat.le_succ _) fun result =>
    .unlock (Nat.le_refl _) (.done result))

/-- Alone, a lock guard makes no difference. -/
theorem runs_locked_iff [Nonempty Fault] {handle : Handler Answer State Fault}
    {body : Program (Reply Answer) Result} {before after : State} {result : Result} :
    (locked body).Runs (alone handle) before result after ↔ body.Runs (alone handle) before result after := by
  simp [locked, Program.runs_ask_iff, Program.runs_bind_iff, alone]

/-- A program that takes the mutex first and returns as soon as it has given it back. -/
def Critical (program : Program (Reply Answer) Result) : Prop :=
  ∃ next, program = .ask .lock next ∧ Nested 0 1 (next ⟨⟩)

theorem Balanced.critical {body : Program (Reply Answer) Result} (h : Balanced body) :
    Critical (Guarded.locked body) :=
  ⟨_, rfl, (h 0).bind (Nat.zero_le _) fun result => .unlock (Nat.le_refl _) (.done result)⟩

theorem Nested.not_done {base depth : Nat} {program : Program (Reply Answer) Result}
    (h : Nested base depth program) (hInside : base < depth) (result : Result) : program ≠ .done result := by
  rintro rfl
  cases h
  exact absurd hInside (Nat.lt_irrefl _)

theorem Critical.not_done {program : Program (Reply Answer) Result} (h : Critical program)
    (result : Result) : program ≠ .done result := by
  obtain ⟨next, rfl, _⟩ := h
  simp

end Guarded

/-- Threads at their points of a program, the state they share, and the thread that
holds the mutex with how many times more than once. -/
structure MutexPool {Call : Type u} (Answer : Call → Type v) (Tid Result State : Type w) where
  programs : Tid → Program (Guarded.Reply Answer) Result
  state : State
  held : Option (Tid × Nat)

namespace MutexPool

variable {Call : Type u} {Answer : Call → Type v} {Tid Result State Fault : Type w} [DecidableEq Tid]
  (handle : Handler Answer State Fault)

/-- The mutex after the thread's call, if the thread need not wait. -/
def permit (held : Option (Tid × Nat)) (tid : Tid) : Guarded Call → Option (Option (Tid × Nat))
  | .lock =>
    match held with
    | none => some (some (tid, 0))
    | some (holder, more) => if holder = tid then some (some (tid, more + 1)) else none
  | .unlock =>
    match held with
    | none => none
    | some (holder, more) =>
      if holder = tid then some (match more with | 0 => none | fewer + 1 => some (tid, fewer)) else none
  | .under _ => some held

def step (pool : MutexPool Answer Tid Result State) (action : Tid × Fault) :
    Option (MutexPool Answer Tid Result State) :=
  match pool.programs action.1 with
  | .done _ => none
  | .ask call next =>
    let answered := Guarded.alone handle call action.2 pool.state
    (permit pool.held action.1 call).map fun held =>
      ⟨Function.update pool.programs action.1 (next answered.1), answered.2, held⟩

def machine : Machine (MutexPool Answer Tid Result State) (Tid × Fault) := ⟨step handle⟩

variable {handle} {pool after : MutexPool Answer Tid Result State} {action : Tid × Fault}

theorem step_eq_some_iff : step handle pool action = some after ↔
    ∃ call next held, pool.programs action.1 = .ask call next ∧
      permit pool.held action.1 call = some held ∧
      after = ⟨Function.update pool.programs action.1
          (next (Guarded.alone handle call action.2 pool.state).1),
        (Guarded.alone handle call action.2 pool.state).2, held⟩ := by
  unfold step
  cases hProgram : pool.programs action.1 with
  | done result => simp
  | ask call next =>
      simp only [Option.map_eq_some_iff]
      constructor
      · rintro ⟨held, hPermit, rfl⟩
        exact ⟨call, next, held, rfl, hPermit, rfl⟩
      · rintro ⟨call', next', held, hSame, hPermit, rfl⟩
        cases hSame
        exact ⟨held, hPermit, rfl⟩

/-- A run, with the threads that are done in the order in which they got done. -/
inductive Finishes (handle : Handler Answer State Fault) (start : MutexPool Answer Tid Result State) :
    MutexPool Answer Tid Result State → List (Tid × Result) → Prop where
  | start : Finishes handle start start []
  | goOn {pool after : MutexPool Answer Tid Result State} {order : List (Tid × Result)}
      {action : Tid × Fault} (hBefore : Finishes handle start pool order)
      (hStep : step handle pool action = some after)
      (hMore : ∀ result, after.programs action.1 ≠ .done result) : Finishes handle start after order
  | finish {pool after : MutexPool Answer Tid Result State} {order : List (Tid × Result)}
      {action : Tid × Fault} {result : Result} (hBefore : Finishes handle start pool order)
      (hStep : step handle pool action = some after) (hDone : after.programs action.1 = .done result) :
      Finishes handle start after (order ++ [(action.1, result)])

/-- The threads that get done along the actions. -/
def finished (handle : Handler Answer State Fault) :
    MutexPool Answer Tid Result State → List (Tid × Fault) → List (Tid × Result)
  | _, [] => []
  | pool, action :: rest =>
    match step handle pool action with
    | none => []
    | some after =>
      match after.programs action.1 with
      | .done result => (action.1, result) :: finished handle after rest
      | .ask _ _ => finished handle after rest

/-- Every run is one of these, with what it finishes. -/
theorem Finishes.of_run {start : MutexPool Answer Tid Result State} {order : List (Tid × Result)}
    {actions : List (Tid × Fault)} (h : Finishes handle start pool order)
    (hRun : (machine handle).run pool actions = some after) :
    Finishes handle start after (order ++ finished handle pool actions) := by
  induction actions generalizing pool order with
  | nil =>
      rw [Machine.run_nil, Option.some.injEq] at hRun
      subst hRun
      simpa [finished] using h
  | cons action rest ih =>
      rw [Machine.run_cons, Option.bind_eq_some_iff] at hRun
      obtain ⟨middle, hStep, hRest⟩ := hRun
      have hTaken : step handle pool action = some middle := hStep
      simp only [finished, hTaken]
      cases hProgram : middle.programs action.1 with
      | done result =>
          have hMiddle := ih (h.finish hTaken hProgram) hRest
          rwa [List.append_assoc] at hMiddle
      | ask call next => exact ih (h.goOn hTaken (by simp [hProgram])) hRest

/-- Threads that run one after the other, each at most once, with their results. -/
inductive Serial (handle : Handler Answer State Fault) (programs : Tid → Program (Guarded.Reply Answer) Result)
    (start : State) : List (Tid × Result) → State → Prop where
  | nil : Serial handle programs start [] start
  | snoc {order : List (Tid × Result)} {before after : State} {tid : Tid} {result : Result}
      (hBefore : Serial handle programs start order before) (hNew : ∀ other, (tid, other) ∉ order)
      (hRuns : (programs tid).Runs (Guarded.alone handle) before result after) :
      Serial handle programs start (order ++ [(tid, result)]) after

omit [DecidableEq Tid] in
theorem Serial.nodup {programs : Tid → Program (Guarded.Reply Answer) Result} {start state : State}
    {order : List (Tid × Result)} (h : Serial handle programs start order state) :
    (order.map Prod.fst).Nodup := by
  induction h with
  | nil => exact List.nodup_nil
  | @snoc order _ _ tid result _ hNew _ ih =>
      rw [List.map_append, List.nodup_append]
      refine ⟨ih, by simp, ?_⟩
      intro first hFirst last hLast hSame
      rw [List.map_singleton, List.mem_singleton] at hLast
      obtain ⟨⟨other, given⟩, hMem, rfl⟩ := List.mem_map.mp hFirst
      have hTid : other = tid := hSame.trans hLast
      exact hNew given (hTid ▸ hMem)

/-- The threads that are done ran in this order, a thread that holds the mutex is on its
way from the state they left, and the others have not begun. -/
structure Serialized (handle : Handler Answer State Fault)
    (programs : Tid → Program (Guarded.Reply Answer) Result) (start : State)
    (pool : MutexPool Answer Tid Result State) (order : List (Tid × Result)) (state : State) : Prop where
  serial : Serial handle programs start order state
  done : ∀ tid result, pool.programs tid = .done result ↔ (tid, result) ∈ order
  waiting : ∀ tid, (∀ result, (tid, result) ∉ order) → (∀ more, pool.held ≠ some (tid, more)) →
    pool.programs tid = programs tid
  free : pool.held = none → pool.state = state
  inside : ∀ tid more, pool.held = some (tid, more) → Guarded.Nested 0 (more + 1) (pool.programs tid) ∧
    Program.Advances (Guarded.alone handle) (programs tid) state (pool.programs tid) pool.state

namespace Serialized

variable {programs : Tid → Program (Guarded.Reply Answer) Result} {start state next : State}
  {order : List (Tid × Result)} {tid : Tid} {more : Nat}
  {program : Program (Guarded.Reply Answer) Result}

omit [DecidableEq Tid] in
theorem not_mem_of_held (h : Serialized handle programs start pool order state)
    (hHeld : pool.held = some (tid, more)) (result : Result) : (tid, result) ∉ order := by
  rw [← h.done]
  exact (h.inside tid more hHeld).1.not_done (Nat.succ_pos _) result

/-- A thread gets to its next point inside, or takes the free mutex. -/
theorem goOn (h : Serialized handle programs start pool order state)
    (hOrder : ∀ result, (tid, result) ∉ order)
    (hAlone : ∀ other more, pool.held = some (other, more) → other = tid)
    (hNested : Guarded.Nested 0 (more + 1) program)
    (hAdvances : Program.Advances (Guarded.alone handle) (programs tid) state program next) :
    Serialized handle programs start
      ⟨Function.update pool.programs tid program, next, some (tid, more)⟩ order state where
  serial := h.serial
  done other result := by
    by_cases hSame : other = tid
    · subst hSame
      simp only [Function.update_self, hOrder, iff_false]
      exact hNested.not_done (Nat.succ_pos _) result
    · simp only [Function.update_of_ne hSame]
      exact h.done other result
  waiting other hNot hOther := by
    have hNe : other ≠ tid := fun hSame => hOther more (by rw [hSame])
    simp only [Function.update_of_ne hNe]
    exact h.waiting other hNot fun some hHeld => hNe (hAlone other some hHeld)
  free hFree := by simp at hFree
  inside other count hHeld := by
    obtain ⟨rfl, rfl⟩ := Prod.mk.inj (Option.some.inj hHeld)
    simp only [Function.update_self]
    exact ⟨hNested, hAdvances⟩

/-- The thread that holds the mutex gives it back for good. -/
theorem leave [Nonempty Fault] (h : Serialized handle programs start pool order state)
    (hHeld : pool.held = some (tid, more)) {result : Result}
    (hAdvances : Program.Advances (Guarded.alone handle) (programs tid) state (.done result) next) :
    Serialized handle programs start ⟨Function.update pool.programs tid (.done result), next, none⟩
      (order ++ [(tid, result)]) next where
  serial := .snoc h.serial (h.not_mem_of_held hHeld) 
    (hAdvances.runs (Program.runs_done_iff.mpr ⟨rfl, rfl⟩))
  done other given := by
    by_cases hSame : other = tid
    · subst hSame
      simp [h.not_mem_of_held hHeld, eq_comm]
    · simp only [Function.update_of_ne hSame, h.done, List.mem_append, List.mem_singleton,
        Prod.mk.injEq, hSame, false_and, or_false]
  waiting other hNot _ := by
    have hNe : other ≠ tid := fun hSame => hNot result (by simp [hSame])
    simp only [Function.update_of_ne hNe]
    refine h.waiting other (fun given hMem => hNot given (by simp [hMem])) ?_
    intro some hOther
    rw [hHeld] at hOther
    exact hNe (Prod.mk.inj (Option.some.inj hOther)).1.symm
  free _ := rfl
  inside other count hInside := by simp at hInside

/-- One call of the thread that holds the mutex. -/
theorem step_inside [Nonempty Fault] (h : Serialized handle programs start pool order state)
    (hHeld : pool.held = some (action.1, more)) (hStep : step handle pool action = some after) :
    ((∀ result, after.programs action.1 ≠ .done result) ∧
        Serialized handle programs start after order state) ∨
      ∃ result, after.programs action.1 = .done result ∧
        Serialized handle programs start after (order ++ [(action.1, result)]) after.state := by
  obtain ⟨call, next, held, hProgram, hPermit, rfl⟩ := step_eq_some_iff.mp hStep
  obtain ⟨hNested, hAdvances⟩ := h.inside _ more hHeld
  rw [hProgram] at hNested hAdvances
  have hNew := hAdvances.answer action.2
  have hOrder := h.not_mem_of_held hHeld
  have hAlone : ∀ other count, pool.held = some (other, count) → other = action.1 := by
    intro other count hOther
    rw [hHeld] at hOther
    exact (Prod.mk.inj (Option.some.inj hOther)).1.symm
  rw [hHeld] at hPermit
  simp only [Function.update_self]
  cases hNested with
  | lock hNext =>
      simp only [permit, ↓reduceIte, Option.some.injEq] at hPermit
      subst hPermit
      exact .inl ⟨hNext.not_done (Nat.succ_pos _), h.goOn hOrder hAlone hNext hNew⟩
  | under hNext =>
      simp only [permit, Option.some.injEq] at hPermit
      subst hPermit
      exact .inl ⟨(hNext _).not_done (Nat.succ_pos _), h.goOn hOrder hAlone (hNext _) hNew⟩
  | @unlock _ opened _ hNext =>
      simp only [permit, ↓reduceIte, Option.some.injEq] at hPermit
      subst hPermit
      cases more with
      | succ fewer => exact .inl ⟨hNext.not_done (Nat.succ_pos _), h.goOn hOrder hAlone hNext hNew⟩
      | zero =>
          -- the last unlock of a program is its last call
          generalize hLeft : opened ⟨⟩ = left at hNext
          cases hNext with
          | done result =>
              simp only [Guarded.alone, hLeft] at hNew ⊢
              exact .inr ⟨_, rfl, h.leave hHeld hNew⟩

/-- One call of any other thread is the one that takes the mutex. -/
theorem step_outside (hCritical : ∀ tid, Guarded.Critical (programs tid))
    (h : Serialized handle programs start pool order state)
    (hOutside : ∀ more, pool.held ≠ some (action.1, more)) (hStep : step handle pool action = some after) :
    (∀ result, after.programs action.1 ≠ .done result) ∧
      Serialized handle programs start after order state := by
  obtain ⟨call, next, held, hProgram, hPermit, rfl⟩ := step_eq_some_iff.mp hStep
  have hOrder : ∀ result, (action.1, result) ∉ order := by
    intro result hMem
    rw [← h.done, hProgram] at hMem
    cases hMem
  have hFirst := h.waiting action.1 hOrder hOutside
  obtain ⟨opened, hLock, hNested⟩ := hCritical action.1
  rw [← hFirst, hProgram] at hLock
  cases hLock
  cases hHeld : pool.held with
  | some entry =>
      obtain ⟨holder, more⟩ := entry
      have hNe : holder ≠ action.1 := by
        rintro rfl
        exact hOutside more hHeld
      simp [permit, hHeld, hNe] at hPermit
  | none =>
      simp only [permit, hHeld, Option.some.injEq] at hPermit
      subst hPermit
      simp only [Function.update_self]
      refine ⟨hNested.not_done (Nat.succ_pos _), h.goOn hOrder (by simp [hHeld]) hNested ?_⟩
      have hStart : Program.Advances (Guarded.alone handle) (programs action.1) state
          (pool.programs action.1) pool.state := by
        rw [hFirst, h.free hHeld]
        exact .start
      rw [hProgram] at hStart
      exact hStart.answer action.2

end Serialized

/-- In any interleaving the threads run one after the other, in the order in which they get
done, and while the mutex is free the state is the one that they left. -/
theorem Finishes.serialized [Nonempty Fault] {programs : Tid → Program (Guarded.Reply Answer) Result}
    {start : State} {order : List (Tid × Result)} (hCritical : ∀ tid, Guarded.Critical (programs tid))
    (h : Finishes handle ⟨programs, start, none⟩ pool order) :
    ∃ state, Serialized handle programs start pool order state := by
  have hStep {pool after : MutexPool Answer Tid Result State} {order : List (Tid × Result)} {state : State}
      {action : Tid × Fault} (hPool : Serialized handle programs start pool order state)
      (hStep : step handle pool action = some after) :
      ((∀ result, after.programs action.1 ≠ .done result) ∧
          Serialized handle programs start after order state) ∨
        ∃ result, after.programs action.1 = .done result ∧
          Serialized handle programs start after (order ++ [(action.1, result)]) after.state := by
    by_cases hHeld : ∃ more, pool.held = some (action.1, more)
    · obtain ⟨more, hHeld⟩ := hHeld
      exact hPool.step_inside hHeld hStep
    · exact .inl (hPool.step_outside hCritical (fun more hSame => hHeld ⟨more, hSame⟩) hStep)
  induction h with
  | start =>
      exact ⟨start, .nil, fun tid result => by simp [(hCritical tid).not_done], fun _ _ _ => rfl,
        fun _ => rfl, fun _ _ hHeld => by simp at hHeld⟩
  | goOn _ hTaken hMore ih =>
      obtain ⟨state, hPool⟩ := ih
      rcases hStep hPool hTaken with ⟨_, hAfter⟩ | ⟨result, hDone, _⟩
      · exact ⟨state, hAfter⟩
      · exact absurd hDone (hMore result)
  | finish _ hTaken hDone ih =>
      obtain ⟨state, hPool⟩ := ih
      rcases hStep hPool hTaken with ⟨hMore, _⟩ | ⟨result, hResult, hAfter⟩
      · exact absurd hDone (hMore _)
      · rw [hDone, Program.done.injEq] at hResult
        exact ⟨_, hResult ▸ hAfter⟩

/-- Some thread can always go on until all are done. -/
theorem progress [Nonempty Fault] {programs : Tid → Program (Guarded.Reply Answer) Result} {start : State}
    {order : List (Tid × Result)} (hCritical : ∀ tid, Guarded.Critical (programs tid))
    (h : Finishes handle ⟨programs, start, none⟩ pool order) (fault : Fault) {tid : Tid}
    (hTid : ∀ result, pool.programs tid ≠ .done result) :
    ∃ other, (step handle pool (other, fault)).isSome ∧ (pool.held = none → other = tid) := by
  obtain ⟨state, hPool⟩ := h.serialized hCritical
  cases hHeld : pool.held with
  | none =>
      refine ⟨tid, ?_, fun _ => rfl⟩
      have hFirst := hPool.waiting tid (fun result hMem => hTid result ((hPool.done tid result).mpr hMem))
        (by simp [hHeld])
      obtain ⟨next, hLock, _⟩ := hCritical tid
      simp [step, hFirst, hLock, permit, hHeld]
  | some entry =>
      obtain ⟨holder, more⟩ := entry
      refine ⟨holder, ?_, by simp⟩
      have hNested := (hPool.inside holder more hHeld).1
      generalize hProgram : pool.programs holder = program at hNested
      cases hNested with
      | lock | under | unlock => simp [step, hProgram, permit, hHeld]

end MutexPool
end Transition
