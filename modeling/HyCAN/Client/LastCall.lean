import HyCAN.Client.LateRequests

/-! When the last call decides: what a call that returns success leaves, what the daemon
can still do with the queue, and the condition on the steps of a run. -/
namespace HyCAN

open NetlinkManager Transition

namespace LateRequests

variable (texts : ErrorTexts) {name : List UInt8}

section Steps

variable {system after : LateRequests} {up : Bool}

/-- A command that returns 0 has set the state of the link that it names. -/
theorem exists_of_runCommand {fault : CommandFault} {kernel : LinkTable} {command : IpCommand}
    (h : (runCommand fault kernel command).1 = 0) :
    ∃ link, kernel.byName command.name = some link ∧
      (runCommand fault kernel command).2.byName command.name = some (command.change.apply link) := by
  unfold runCommand at h ⊢
  cases hShell : fault.shell with
  | some code =>
      simp only [hShell] at h
      omega
  | none =>
      simp only [hShell] at h
      obtain ⟨link, hLink, _, hLeft⟩ := IpCommand.exists_of_run h
      exact ⟨link, hLink, hLeft⟩

/-- A call that returns success leaves the link in its state, and the queue as it was. -/
theorem returns_cases {action : Action} (h : Consistent name system) (hReturns : Returns texts name system action up)
    (hStep : step texts name system action = some after) :
    after.call = none ∧ after.last = some up ∧ after.queue = system.queue ∧
      ∃ link left, system.manager.kernel.byName name = some link ∧
        after.manager.kernel.byName name = some left ∧ left.up = up ∧ left.kind = link.kind := by
  obtain ⟨hCall, same, hSame, hEnded, hLast⟩ := hReturns
  obtain rfl : same = after := Option.some.inj (hSame.symm.trans hStep)
  refine ⟨hEnded, hLast, ?_⟩
  cases action with
  | call up bitrate =>
      simp only [step] at hStep
      split at hStep
      · cases hStep
      next hNone => simp [hNone] at hCall
  | send =>
      simp only [step] at hStep
      split at hStep
      · obtain rfl := Option.some.inj hStep
        cases hEnded
      · cases hStep
  | receive =>
      simp only [step] at hStep
      split at hStep
      next current request next connection response hCurrent =>
        obtain rfl := Option.some.inj hStep
        obtain ⟨_, _, _, _, hAnswer, _, hAnswered⟩ := (h.stage _ hCurrent).request
        obtain ⟨error, hNext⟩ := hAnswer response
        rw [hNext] at hLast ⊢
        split_ifs at hLast ⊢ with hResult
        · cases hLast
        · obtain rfl := Option.some.inj hLast
          obtain ⟨link, hLink, hUp⟩ := (hAnswered response rfl).2 (not_not.mp hResult)
          exact ⟨rfl, link, link, hLink, hLink, hUp, rfl⟩
      · cases hStep
  | fail error =>
      simp only [step] at hStep
      split at hStep
      next current request next connection response hCurrent =>
        obtain rfl := Option.some.inj hStep
        obtain ⟨bitrate, _, _, hError, _⟩ := (h.stage _ hCurrent).request
        rw [hError, advance_fallbackSystemCall] at hEnded
        cases hEnded
      · cases hStep
  | command fault =>
      simp only [step] at hStep
      split at hStep
      next current command next connection response hCurrent =>
        obtain rfl := Option.some.inj hStep
        obtain ⟨hName, ⟨error, hNext⟩ | ⟨hCommand, error, hNext⟩⟩ := (h.stage _ hCurrent).command
        · rw [hNext] at hEnded hLast
          split_ifs at hEnded hLast
          · cases hLast
          · rw [advance_fallbackState] at hEnded
            cases hEnded
        · rw [hNext] at hLast ⊢
          split_ifs at hLast ⊢ with hResult
          · cases hLast
          · obtain rfl := Option.some.inj hLast
            obtain ⟨link, hLink, hLeft⟩ := exists_of_runCommand (not_not.mp hResult)
            rw [hName] at hLink hLeft
            subst hCommand
            exact ⟨rfl, link, _, hLink, hLeft, rfl, rfl⟩
      · cases hStep
  | handle memory faults =>
      simp only [step] at hStep
      split at hStep
      · cases hStep
      · obtain rfl := Option.some.inj hStep
        simp [Option.map_eq_none_iff.mp hEnded] at hCall
  | drop =>
      simp only [step] at hStep
      split at hStep
      · cases hStep
      · obtain rfl := Option.some.inj hStep
        have hNone : system.call = none := hEnded
        simp [hNone] at hCall

/-- Between two calls only the daemon makes steps. -/
theorem step_of_idle {action : Action} (hCall : system.call = none) (hEnded : after.call = none)
    (hStep : step texts name system action = some after) : action.OfDaemon ∧ after.last = system.last := by
  cases action with
  | call up bitrate =>
      simp only [step, hCall] at hStep
      obtain rfl := Option.some.inj hStep
      cases hEnded
  | send | receive | fail error | command fault => simp [step, hCall] at hStep
  | handle memory faults | drop =>
      simp only [step] at hStep
      split at hStep
      · cases hStep
      · obtain rfl := Option.some.inj hStep
        exact ⟨trivial, rfl⟩

/-- While no call is in progress, harmless requests are handled or dropped without any
change to the kernel. -/
theorem kernel_of_run (hValid : ValidLinkName name) {actions : List Action} (h : Consistent name system)
    {link : Link} (hLink : system.manager.kernel.byName name = some link)
    (hHarmless : ∀ queued ∈ system.queue, Harmless link.kind link.up queued.request)
    (hDaemon : ∀ action ∈ actions, Action.OfDaemon action)
    (hRun : (machine texts name).run system actions = some after) :
    after.manager.kernel = system.manager.kernel := by
  induction actions generalizing system with
  | nil =>
      rw [Machine.run_nil, Option.some.injEq] at hRun
      rw [hRun]
  | cons action rest ih =>
      rw [Machine.run_cons, Option.bind_eq_some_iff] at hRun
      obtain ⟨next, hStep, hRest⟩ := hRun
      have hNext := consistent_step texts hValid h hStep
      have hLater : ∀ action ∈ rest, Action.OfDaemon action :=
        fun action hMem => hDaemon action (List.mem_cons_of_mem _ hMem)
      have hKept : next.manager.kernel = system.manager.kernel ∧
          ∀ queued ∈ next.queue, queued ∈ system.queue := by
        have hOwn := hDaemon action List.mem_cons_self
        cases action with
        | call up bitrate | send | receive | fail error | command fault => exact absurd hOwn id
        | handle memory faults =>
            simp only [machine, step] at hStep
            split at hStep
            · cases hStep
            next head tail hQueue =>
              obtain rfl := Option.some.inj hStep
              refine ⟨?_, fun queued hMem => by simp [hQueue, hMem]⟩
              obtain ⟨up, bitrate, hRequest⟩ := h.requests head (by simp [hQueue])
              have hHead := hHarmless head (by simp [hQueue])
              rw [hRequest] at hHead
              dsimp only
              rw [hRequest]
              exact kernel_of_harmless texts hValid hLink hHead memory faults
        | drop =>
            simp only [machine, step] at hStep
            split at hStep
            · cases hStep
            next head tail hQueue =>
              obtain rfl := Option.some.inj hStep
              exact ⟨rfl, fun queued hMem => by simp [hQueue, hMem]⟩
      rw [ih hNext (by rw [hKept.1]; exact hLink) (fun queued hMem => hHarmless queued (hKept.2 queued hMem))
        hLater hRest, hKept.1]

/-- The daemon can drop what is in front of a request. -/
theorem run_drop (name : List UInt8) {front back : List QueuedRequest}
    (hQueue : system.queue = front ++ back) :
    (machine texts name).run system (List.replicate front.length .drop) =
      some { system with queue := back } := by
  induction front generalizing system with
  | nil =>
      rw [List.nil_append] at hQueue
      rw [← hQueue]
      rfl
  | cons head rest ih =>
      have hStep : (machine texts name).step system .drop = some { system with queue := rest ++ back } := by
        simp [machine, step, hQueue]
      rw [List.length_cons, List.replicate_succ, Machine.run_cons, hStep, Option.bind_some]
      exact ih rfl

/-- Right after a successful call, the link is settled exactly if nothing harmful is left
in the queue. -/
theorem lastDecides_iff (hValid : ValidLinkName name) (h : Consistent name system) (hCall : system.call = none)
    (hLast : system.last = some up) {link : Link} (hLink : system.manager.kernel.byName name = some link)
    (hUp : link.up = up) :
    LastDecides texts name system ↔ ∀ queued ∈ system.queue, Harmless link.kind up queued.request := by
  subst hUp
  constructor
  · intro hDecides queued hMem
    by_contra hHarm
    obtain ⟨front, back, hQueue⟩ := List.append_of_mem hMem
    obtain ⟨_, bitrate, hRequest⟩ := h.requests queued hMem
    rw [hRequest] at hHarm
    obtain ⟨faults, left, hLeft, hChanged⟩ := exists_harm texts hValid hLink hHarm
    have hRun : ∃ after, (machine texts name).run system
        (List.replicate front.length .drop ++ [.handle [] faults]) = some after ∧
          after.manager = (system.manager.processRequest texts queued.request [] faults).2 := by
      rw [Machine.run_append, run_drop texts name hQueue]
      exact ⟨_, rfl, rfl⟩
    obtain ⟨later, hRun, hManager⟩ := hRun
    obtain ⟨found, hFound, hState⟩ := hDecides hCall link.up hLast _ _ (by
      intro action hMem
      rcases List.mem_append.mp hMem with hDrop | hLastAction
      · rw [List.eq_of_mem_replicate hDrop]
        trivial
      · rw [List.mem_singleton.mp hLastAction]
        trivial) hRun
    rw [hManager, hRequest] at hFound
    exact hChanged (Option.some.inj (hLeft.symm.trans hFound) ▸ hState)
  · intro hHarmless _ last hSame actions after hDaemon hRun
    obtain rfl := Option.some.inj (hLast.symm.trans hSame)
    have hKernel := kernel_of_run texts hValid h hLink hHarmless hDaemon hRun
    exact ⟨link, by rw [hKernel]; exact hLink, rfl⟩

/-- What a step has to do with the queue for the last call to decide. -/
theorem lastDecides_step_iff (hValid : ValidLinkName name) {action : Action} (h : Consistent name system)
    (hStep : step texts name system action = some after) (hBefore : LastDecides texts name system) :
    LastDecides texts name after ↔ NoneOutlives texts name system action := by
  by_cases hReturns : ∃ up, Returns texts name system action up
  · obtain ⟨up, hReturns⟩ := hReturns
    obtain ⟨hCall, hLast, hQueue, link, left, hLink, hLeft, hUp, hKind⟩ := returns_cases texts h hReturns hStep
    rw [lastDecides_iff texts hValid (consistent_step texts hValid h hStep) hCall hLast hLeft hUp, hQueue, hKind]
    constructor
    · intro hHarmless other found hOther hFound
      obtain ⟨_, same, hSame, _, hOtherLast⟩ := hOther
      rw [hStep, Option.some.injEq] at hSame
      rw [← hSame, hLast, Option.some.injEq] at hOtherLast
      rw [hLink, Option.some.injEq] at hFound
      rw [← hOtherLast, ← hFound]
      exact hHarmless
    · intro hNone
      exact hNone up link hReturns hLink
  · refine iff_of_true ?_ fun up _ hNow => absurd ⟨up, hNow⟩ hReturns
    intro hEnded up hLast actions later hDaemon hRun
    cases hCall : system.call with
    | some call => exact absurd ⟨up, by simp [hCall], after, hStep, hEnded, hLast⟩ hReturns
    | none =>
        obtain ⟨hOwn, hSame⟩ := step_of_idle texts hCall hEnded hStep
        refine hBefore hCall up (hSame ▸ hLast) (action :: actions) later ?_ ?_
        · intro other hMem
          rcases List.mem_cons.mp hMem with rfl | hRest
          · exact hOwn
          · exact hDaemon other hRest
        · rw [Machine.run_cons]
          simp only [machine] at hRun ⊢
          rw [hStep, Option.bind_some]
          exact hRun

end Steps

/-- In a run, the last successful call decides between any two calls exactly if no call
returns success while a harmful request is queued. -/
theorem last_call_decides_iff {name : List UInt8} (hValid : ValidLinkName name) (manager : NetlinkManager)
    (actions : List Action) :
    (∀ system, (machine texts name).Passes (start manager) actions system → LastDecides texts name system) ↔
      ∀ system action after, (machine texts name).Takes (start manager) actions system action after →
        NoneOutlives texts name system action := by
  refine Machine.passes_iff_takes (fun _ up hLast => by cases hLast) ?_
  intro system action after hTakes hDecides
  obtain ⟨front, back, _, hRun, hStep⟩ := hTakes
  have hConsistent : Consistent name system :=
    Machine.Reachable.invariant (consistent_start name manager)
      (fun _ _ _ hBefore hNext => consistent_step texts hValid hBefore hNext) ⟨front, hRun⟩
  exact lastDecides_step_iff texts hValid hConsistent hStep hDecides

/-- A CAN link that is down. -/
def downCan0 : NetlinkManager where
  kernel := .single ⟨1, ascii "can0", .can, false, 0⟩ (by decide +kernel)
  linkCache := []

/-- A fallback that works. -/
def smooth : CommandFault :=
  ⟨none, fun _ _ => none⟩

/-- The response comes too late, so the client brings the link up itself, and then down
in the same way. -/
def slowDaemon : List Action :=
  [.call true 1000000, .send, .fail ⟨.netlinkBringUpError, ascii "Failed to receive response from daemon"⟩,
    .command smooth, .command smooth, .call false 1000000, .send,
    .fail ⟨.netlinkBringUpError, ascii "Failed to receive response from daemon"⟩, .command smooth]

theorem last_call_decides_can0 :
    (∀ system, (machine ⟨fun _ => [], fun _ => []⟩ (ascii "can0")).Passes (start downCan0) slowDaemon system →
        LastDecides ⟨fun _ => [], fun _ => []⟩ (ascii "can0") system) ↔
      ∀ system action after,
        (machine ⟨fun _ => [], fun _ => []⟩ (ascii "can0")).Takes (start downCan0) slowDaemon system action
          after → NoneOutlives ⟨fun _ => [], fun _ => []⟩ (ascii "can0") system action :=
  last_call_decides_iff _ (by decide +kernel) downCan0 slowDaemon

/-- The worker gets round to the first request after the second call. -/
theorem late_request_brings_up :
    ¬∀ (texts : ErrorTexts) (name : List UInt8) (manager : NetlinkManager) (actions : List Action)
        (system : LateRequests), ValidLinkName name →
      (machine texts name).Passes (start manager) actions system → LastDecides texts name system := by
  intro hClaim
  have hSettled : ((machine ⟨fun _ => [], fun _ => []⟩ (ascii "can0")).run (start downCan0) slowDaemon).map
      (fun system => (system.call.isNone, system.last)) = some (true, some false) := by decide +kernel
  obtain ⟨system, hRun, hReturned⟩ := Option.map_eq_some_iff.mp hSettled
  obtain ⟨hCall, hLast⟩ := Prod.mk.inj hReturned
  have hHandled : ((machine ⟨fun _ => [], fun _ => []⟩ (ascii "can0")).run (start downCan0)
      (slowDaemon ++ [.handle [] noFaults])).map
        (fun system => (system.manager.kernel.byName (ascii "can0")).map Link.up) = some (some true) := by
    decide +kernel
  rw [Machine.run_append, hRun, Option.bind_some] at hHandled
  obtain ⟨after, hAfter, hUp⟩ := Option.map_eq_some_iff.mp hHandled
  obtain ⟨link, hLink, hDown⟩ := hClaim _ _ _ _ system (by decide +kernel) (.of_run hRun)
    (Option.isNone_iff_eq_none.mp hCall) false hLast [.handle [] noFaults] after
    (by simp [Action.OfDaemon]) hAfter
  rw [hLink, Option.map_some, hDown] at hUp
  cases hUp

end LateRequests
end HyCAN
