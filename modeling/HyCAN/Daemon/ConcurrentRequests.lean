import HyCAN.Daemon.ManagerLifetime

/-! Requests that the workers of several sessions make at once, each call by call. The
recursive mutex of the manager makes them requests one after the other. -/
namespace HyCAN

open Transition

namespace NetlinkProgram

variable (texts : ErrorTexts) (nlSocket linkCache : Nat) (name : List UInt8) (request : NetlinkRequest)

/-- A function without a lock guard of its own. -/
theorem balanced_checkInterfaceExists : Guarded.Balanced (checkInterfaceExists nlSocket linkCache name) := by
  apply Guarded.Balanced.locked
  repeat' first
    | exact Guarded.Balanced.done _
    | (apply Guarded.Balanced.under; intro answer)
    | split

theorem balanced_checkInterfaceIsUp : Guarded.Balanced (checkInterfaceIsUp nlSocket linkCache name) := by
  apply Guarded.Balanced.locked
  repeat' first
    | exact Guarded.Balanced.done _
    | (apply Guarded.Balanced.under; intro answer)
    | split

theorem balanced_changeState (link change : Nat) :
    Guarded.Balanced (changeState texts nlSocket linkCache link change) := by
  unfold changeState
  repeat' first
    | exact Guarded.Balanced.done _
    | (apply Guarded.Balanced.under; intro answer)
    | split

theorem balanced_setInterfaceStateLibnl (up : Bool) :
    Guarded.Balanced (setInterfaceStateLibnl texts nlSocket linkCache name up) := by
  apply Guarded.Balanced.locked
  repeat' first
    | exact Guarded.Balanced.done _
    | exact balanced_changeState texts nlSocket linkCache _ _
    | (apply Guarded.Balanced.under; intro answer)
    | split

theorem balanced_changeBitrate (link change : Nat) (bitrate : UInt32) :
    Guarded.Balanced (changeBitrate texts nlSocket link change bitrate) := by
  unfold changeBitrate
  repeat' first
    | exact Guarded.Balanced.done _
    | (apply Guarded.Balanced.under; intro answer)
    | split

theorem balanced_setCanBitrateLibnl (bitrate : UInt32) :
    Guarded.Balanced (setCanBitrateLibnl texts nlSocket linkCache name bitrate) := by
  apply Guarded.Balanced.locked
  repeat' first
    | exact Guarded.Balanced.done _
    | exact balanced_changeBitrate texts nlSocket _ _ _
    | (apply Guarded.Balanced.under; intro answer)
    | split

theorem balanced_createVcanInterfaceIfNotExists :
    Guarded.Balanced (createVcanInterfaceIfNotExists texts name) := by
  unfold createVcanInterfaceIfNotExists addVcan
  repeat' first
    | exact Guarded.Balanced.done _
    | (apply Guarded.Balanced.under; intro answer)
    | split

theorem balanced_setBitrateThenState :
    Guarded.Balanced (setBitrateThenState texts nlSocket linkCache name request) := by
  apply (balanced_setCanBitrateLibnl texts nlSocket linkCache name request.bitrate).bind
  intro rated
  split
  · exact .done _
  · exact balanced_setInterfaceStateLibnl texts nlSocket linkCache name request.up

theorem balanced_processSetInterfaceState :
    Guarded.Balanced (processSetInterfaceState texts nlSocket linkCache name request) := by
  unfold processSetInterfaceState
  split
  · apply (balanced_checkInterfaceIsUp nlSocket linkCache name).bind
    intro checked
    unfold lowerThenSet
    split
    · exact .done _
    · split
      · apply (balanced_setInterfaceStateLibnl texts nlSocket linkCache name false).bind
        intro lowered
        split
        · exact .done _
        · exact balanced_setBitrateThenState texts nlSocket linkCache name request
      · exact balanced_setBitrateThenState texts nlSocket linkCache name request
  · exact balanced_setInterfaceStateLibnl texts nlSocket linkCache name request.up

/-- All of a request is in the scope of the lock guard of `process_request`. -/
theorem critical_processRequest (memory : List UInt8) :
    Guarded.Critical (processRequest texts nlSocket linkCache request memory) := by
  apply Guarded.Balanced.critical
  unfold handleRequest
  split
  · exact balanced_checkInterfaceExists nlSocket linkCache _
  · exact balanced_checkInterfaceIsUp nlSocket linkCache _
  · apply (balanced_createVcanInterfaceIfNotExists texts _).bind
    rintro (_ | _) <;> exact .done _
  · exact balanced_processSetInterfaceState texts nlSocket linkCache _ request
  · exact .done _

end NetlinkProgram

/-- What was misused once stays marked. -/
theorem Libnl.misused_handle (call : LibnlCall) (fault : LibnlFault) {s : Libnl} (h : s.misused = true) :
    (Libnl.handle call fault s).2.misused = true := by
  cases call <;> simp only [Libnl.handle, Libnl.refillCache, Libnl.setRequest, Libnl.changeLink, Libnl.addLink]
  all_goals repeat' first | exact h | rfl | split

namespace NetlinkProgram

variable (texts : ErrorTexts) {nlSocket linkCache : Nat} {others : Nat → Option NlObject}
  {manager : NetlinkManager} {s t : Libnl}

theorem misused_of_runs {Result : Type} {program : NetlinkProgram Result} {result : Result}
    (hRun : Runs program s result t) (h : s.misused = true) : t.misused = true := by
  obtain ⟨faults, hRun⟩ := hRun
  have hKept := program.uses_any.run (Guarded.alone Libnl.handle) (P := fun s => s.misused = true)
    (fun call fault state _ hState => by
      cases call with
      | lock | unlock => exact hState
      | under call => exact Libnl.misused_handle call fault hState) faults h
  rwa [hRun] at hKept

variable {Tid : Type} (requests : Tid → NetlinkRequest × List UInt8)

/-- The requests, at once, on one manager. -/
def atOnce (nlSocket linkCache : Nat) (s : Libnl) :
    MutexPool LibnlCall.Answer Tid NetlinkResponse Libnl where
  programs tid := processRequest texts nlSocket linkCache (requests tid).1 (requests tid).2
  state := s
  held := none

/-- What the threads have asked for, with the responses that they got. -/
def answered (order : List (Tid × NetlinkResponse)) :
    List ((NetlinkRequest × List UInt8) × NetlinkResponse) :=
  order.map fun entry => (requests entry.1, entry.2)

theorem history_of_serial {order : List (Tid × NetlinkResponse)}
    (hReady : s.Holds nlSocket linkCache others manager)
    (h : MutexPool.Serial Libnl.handle (atOnce texts requests nlSocket linkCache s).programs s order t) :
    ∃ after, History (Answers texts) manager (answered requests order) after ∧
      t.Holds nlSocket linkCache others after := by
  induction h with
  | nil => exact ⟨manager, .nil, hReady⟩
  | snoc _ _ hRuns ih =>
      obtain ⟨before, hOrder, hBefore⟩ := ih
      obtain ⟨after, hLast, hAfter⟩ := processRequest_implements texts _ _ others
        _ before _ _ hBefore hRuns
      refine ⟨after, ?_, hAfter⟩
      rw [answered, List.map_append]
      exact hOrder.snoc hLast

section Interleaving

variable [DecidableEq Tid] {pool : MutexPool LibnlCall.Answer Tid NetlinkResponse Libnl}
  {order : List (Tid × NetlinkResponse)}

/-- Nothing inside a request is about to go wrong that has not gone wrong when it is done. -/
theorem unmisused_of_finishes (hReady : s.Holds nlSocket linkCache others manager)
    (h : MutexPool.Finishes Libnl.handle (atOnce texts requests nlSocket linkCache s) pool order) :
    pool.state.misused = false := by
  obtain ⟨left, hPool⟩ := h.serialized fun tid => critical_processRequest texts _ _ _ _
  obtain ⟨after, _, hLeft⟩ := history_of_serial texts requests hReady hPool.serial
  cases hHeld : pool.held with
  | none => rw [hPool.free hHeld, hLeft.unmisused]
  | some entry =>
      -- what is left of the request inside would end in a state that is marked as well
      obtain ⟨tid, more⟩ := entry
      have hRest : Runs (pool.programs tid) pool.state _ _ := ⟨fun _ => ⟨false, .ok, none, .refused 0, none⟩, rfl⟩
      have hWhole := (hPool.inside tid more hHeld).2.runs hRest
      obtain ⟨_, _, hEnd⟩ := processRequest_implements texts _ _ others _ after _ _ hLeft hWhole
      by_contra hMarked
      have hLast := misused_of_runs hRest (Bool.not_eq_false _ ▸ hMarked)
      rw [hEnd.unmisused] at hLast
      cases hLast

/-- The requests that are done, in the order in which they got done, are a history of the
model of whole functions, and while the mutex is free its manager is what they left. -/
theorem history_of_finishes (hReady : s.Holds nlSocket linkCache others manager)
    (h : MutexPool.Finishes Libnl.handle (atOnce texts requests nlSocket linkCache s) pool order) :
    ∃ after, History (Answers texts) manager (answered requests order) after ∧
      (pool.held = none → pool.state.Holds nlSocket linkCache others after) := by
  obtain ⟨left, hPool⟩ := h.serialized fun tid => critical_processRequest texts _ _ _ _
  obtain ⟨after, hOrder, hLeft⟩ := history_of_serial texts requests hReady hPool.serial
  refine ⟨after, hOrder, ?_⟩
  intro hFree
  rw [hPool.free hFree]
  exact hLeft

/-- Whatever order the threads take their calls in and whatever fails: no call is made on a
pointer that is not to a live object of its type, the requests that are done were handled one
after the other, in the order in which they got done, each once and with the response that it
got, while the mutex is free the links and the cache are what the last of them left, and as
long as a request is not done some thread can go on. -/
theorem requests_serialize (hReady : s.Holds nlSocket linkCache others manager)
    (h : MutexPool.Finishes Libnl.handle (atOnce texts requests nlSocket linkCache s) pool order) :
    pool.state.misused = false ∧
      ((order.map Prod.fst).Nodup ∧
        ∀ tid response, pool.programs tid = .done response ↔ (tid, response) ∈ order) ∧
      (∃ after, History (Answers texts) manager (answered requests order) after ∧
        (pool.held = none → pool.state.Holds nlSocket linkCache others after)) ∧
      ∀ tid, (∀ response, pool.programs tid ≠ .done response) →
        ∀ fault, ∃ other, (MutexPool.step Libnl.handle pool (other, fault)).isSome := by
  have hCritical : ∀ tid, Guarded.Critical ((atOnce texts requests nlSocket linkCache s).programs tid) :=
    fun tid => critical_processRequest texts nlSocket linkCache _ _
  obtain ⟨left, hPool⟩ := h.serialized hCritical
  refine ⟨unmisused_of_finishes texts requests hReady h, ⟨hPool.serial.nodup, hPool.done⟩,
    history_of_finishes texts requests hReady h, ?_⟩
  intro tid hTid fault
  obtain ⟨other, hStep, _⟩ := MutexPool.progress hCritical h fault hTid
  exact ⟨other, hStep⟩

end Interleaving

section Example

/-- Nothing goes wrong in the call. -/
def well : LibnlFault := ⟨false, .ok, none, .refused 0, none⟩

/-- A kernel with `can0`, and a manager that is ready, with its socket and its cache. -/
def readyCan0 : Libnl :=
  let kernel := LinkTable.single ⟨3, ascii "can0", .can, false, 0⟩ (by decide +kernel)
  (((Libnl.start kernel).alloc (.socket true)).2.alloc (.cache kernel.links)).2

theorem holds_readyCan0 : readyCan0.Holds 1 2 (Libnl.onlySocket 1)
    ⟨readyCan0.kernel, readyCan0.kernel.links⟩ :=
  ((Libnl.live_start readyCan0.kernel).alloc (.socket true)).holds

/-- One client asks whether `can0` exists, and one to take it up. -/
def twoRequests (second : Bool) : NetlinkRequest × List UInt8 :=
  (if second then .ofState (ascii "can0") true false 0 else .ofQuery .interfaceExists (ascii "can0"), [])

/-- The first is done and the second inside. -/
theorem requests_serialize_two :
    let texts : ErrorTexts := ⟨fun _ => [], fun _ => []⟩
    ∃ pool order, MutexPool.Finishes Libnl.handle (atOnce texts twoRequests 1 2 readyCan0) pool order ∧
      pool.state.misused = false ∧
      ((order.map Prod.fst).Nodup ∧
        ∀ tid response, pool.programs tid = .done response ↔ (tid, response) ∈ order) ∧
      (∃ after, History (Answers texts) ⟨readyCan0.kernel, readyCan0.kernel.links⟩
          (answered twoRequests order) after ∧
        (pool.held = none → pool.state.Holds 1 2 (Libnl.onlySocket 1) after)) ∧
      ∀ tid, (∀ response, pool.programs tid ≠ .done response) →
        ∀ fault, ∃ other, (MutexPool.step Libnl.handle pool (other, fault)).isSome := by
  intro texts
  obtain ⟨pool, hRun⟩ : ∃ pool, (MutexPool.machine Libnl.handle).run (atOnce texts twoRequests 1 2 readyCan0)
      (List.replicate 7 (false, well) ++ List.replicate 5 (true, well)) = some pool := ⟨_, rfl⟩
  have hFinishes := MutexPool.Finishes.start.of_run hRun
  exact ⟨pool, _, hFinishes, requests_serialize texts twoRequests holds_readyCan0 hFinishes⟩

end Example

end NetlinkProgram
end HyCAN
