import HyCAN.Daemon.NetlinkProgramSteps
import HyCAN.Transition.History

/-! The objects of libnl over the life of the daemon's manager: whatever fails, and
whatever the clients ask for, each is used while it is live and released once. -/
namespace HyCAN

open Transition

namespace Libnl

/-- Before the manager has asked for anything. -/
def start (kernel : LinkTable) : Libnl := ⟨kernel, .empty, false⟩

/-- Just these objects are live, and nothing was misused. -/
structure Live (objects : Nat → Option NlObject) (s : Libnl) (kernel : LinkTable) : Prop where
  kernel : s.kernel = kernel
  objects : s.arena.objects = objects
  unmisused : s.misused = false

theorem live_start (kernel : LinkTable) : (start kernel).Live (fun _ => none) kernel :=
  ⟨rfl, rfl, rfl⟩

/-- One object and nothing else. -/
def only (p : Nat) (object : NlObject) : Nat → Option NlObject :=
  Function.update (fun _ => none) p (some object)

/-- The socket of the manager, as what is live besides its cache. -/
abbrev onlySocket (nlSocket : Nat) : Nat → Option NlObject := only nlSocket (.socket true)

variable {s : Libnl} {kernel : LinkTable} {nlSocket linkCache p : Nat} {object : NlObject}

theorem only_self : only p object p = some object :=
  Function.update_self ..

theorem Live.alloc (h : s.Live (fun _ => none) kernel) (object : NlObject) :
    (s.alloc object).2.Live (only s.arena.next object) kernel :=
  ⟨h.kernel, by rw [Libnl.alloc, Ownership.Arena.objects_alloc, h.objects]; rfl, h.unmisused⟩

theorem Live.object_only (h : s.Live (only p object) kernel) : s.object p = some object := by
  rw [Libnl.object, h.objects, only_self]

theorem Live.write (h : s.Live (only p object) kernel) (content : NlObject) :
    (s.write p content).Live (only p content) kernel := by
  refine ⟨h.kernel, ?_, h.unmisused⟩
  rw [Libnl.write, Ownership.Arena.objects_write h.object_only, h.objects]
  exact Function.update_idem ..

theorem Live.release (h : s.Live (only p object) kernel) :
    (s.release p).Live (fun _ => none) kernel := by
  refine ⟨h.kernel, ?_, h.unmisused⟩
  rw [Libnl.release, Ownership.Arena.objects_release, h.objects, only, Function.update_idem]
  exact Function.update_eq_self ..

/-- The cache of the kernel's links, beside the connected socket. -/
theorem Live.holds (h : s.Live (onlySocket nlSocket) kernel) :
    (s.alloc (.cache s.kernel.links)).2.Holds nlSocket s.arena.next (onlySocket nlSocket)
      ⟨kernel, kernel.links⟩ where
  kernel := h.kernel
  cache := by
    rw [← h.kernel]
    exact Function.update_self ..
  rest p hNe := by
    simp only [object, Libnl.alloc, Ownership.Arena.objects_alloc, Function.update_of_ne hNe, h.objects]
  socket := only_self
  apart := by
    rw [← h.objects]
    exact Ownership.Arena.objects_next
  unmisused := h.unmisused

/-- And without the cache. -/
theorem Holds.live_release {manager : NetlinkManager}
    (h : s.Holds nlSocket linkCache (onlySocket nlSocket) manager) :
    (s.release linkCache).Live (onlySocket nlSocket) manager.kernel where
  kernel := h.kernel
  objects := by
    funext p
    by_cases hSame : p = linkCache
    · rw [hSame, h.apart]
      exact Function.update_self ..
    · rw [← h.rest p hSame]
      exact Function.update_of_ne hSame ..
  unmisused := h.unmisused

end Libnl

namespace NetlinkProgram

variable (texts : ErrorTexts) {s t : Libnl} {kernel : LinkTable}

/-- The socket is freed, whether it is connected or not. -/
theorem runs_nlSocketFree_only {Result : Type} {p : Nat} {connected : Bool}
    {next : Unit → NetlinkProgram Result} {result : Result}
    (h : s.Live (Libnl.only p (.socket connected)) kernel)
    (hRun : Runs (ask (.nlSocketFree p) next) s result t) :
    ∃ after, after.Live (fun _ => none) kernel ∧ Runs (next ()) after result t := by
  obtain ⟨fault, hRest⟩ := runs_ask_iff.mp hRun
  simp only [Libnl.handle, h.object_only] at hRest
  exact ⟨_, h.release, hRest⟩

theorem runs_initialization {initialized : Int × Pointers} (h : s.Live (fun _ => none) kernel)
    (hRun : Runs initialization s initialized t) :
    (initialized = (-1, {}) ∧ t.Live (fun _ => none) kernel) ∨
      (initialized.1 = 0 ∧ initialized.2.nlSocket ≠ 0 ∧ initialized.2.linkCache ≠ 0 ∧
        t.Holds initialized.2.nlSocket initialized.2.linkCache (Libnl.onlySocket initialized.2.nlSocket)
          ⟨kernel, kernel.links⟩) := by
  obtain ⟨allocation, hRun⟩ := runs_ask_iff.mp hRun
  simp only [Libnl.handle] at hRun
  cases hAlloc : allocation.fails with
  | true =>
      rw [hAlloc] at hRun
      obtain ⟨rfl, rfl⟩ := Program.runs_done_iff.mp hRun
      exact .inl ⟨rfl, h⟩
  | false =>
      rw [hAlloc] at hRun
      have hMade := h.alloc (.socket false)
      obtain ⟨connection, hRun⟩ := runs_ask_iff.mp hRun
      simp only [Libnl.handle, Bool.false_eq_true, ↓reduceIte, hMade.object_only] at hRun
      cases hConnect : connection.fails with
      | true =>
          rw [hConnect] at hRun
          obtain ⟨after, hAfter, hDone⟩ := runs_nlSocketFree_only hMade hRun
          obtain ⟨rfl, rfl⟩ := Program.runs_done_iff.mp hDone
          exact .inl ⟨rfl, hAfter⟩
      | false =>
          rw [hConnect] at hRun
          have hJoined := hMade.write (.socket true)
          obtain ⟨caching, hRun⟩ := runs_ask_iff.mp hRun
          simp only [Libnl.handle, Bool.false_eq_true, ↓reduceIte, hJoined.object_only] at hRun
          cases hCache : caching.fails with
          | true =>
              rw [hCache] at hRun
              obtain ⟨after, hAfter, hDone⟩ := runs_nlSocketFree_only hJoined hRun
              obtain ⟨rfl, rfl⟩ := Program.runs_done_iff.mp hDone
              exact .inl ⟨rfl, hAfter⟩
          | false =>
              rw [hCache] at hRun
              obtain ⟨rfl, rfl⟩ := Program.runs_done_iff.mp hRun
              exact .inr ⟨rfl, s.arena.null.ne', (Nat.succ_pos _).ne', hJoined.holds⟩

theorem runs_cleanup {pointers : Pointers} {manager : NetlinkManager}
    (hSocket : pointers.nlSocket ≠ 0) (hCache : pointers.linkCache ≠ 0)
    (h : s.Holds pointers.nlSocket pointers.linkCache (Libnl.onlySocket pointers.nlSocket) manager)
    (hRun : Runs (cleanup pointers) s () t) : t.Live (fun _ => none) manager.kernel := by
  rw [cleanup, if_pos hCache] at hRun
  obtain ⟨fault, hRun⟩ := runs_ask_iff.mp hRun
  simp only [Libnl.handle, h.cache] at hRun
  rw [freeSocket, if_pos hSocket] at hRun
  obtain ⟨after, hAfter, hDone⟩ := runs_nlSocketFree_only h.live_release hRun
  obtain ⟨_, rfl⟩ := Program.runs_done_iff.mp hDone
  exact hAfter

/-- The worker gets the responses that the model of whole functions has for its requests. -/
theorem runs_serve {pointers : Pointers} {requests : List (NetlinkRequest × List UInt8)}
    {others : Nat → Option NlObject} {manager : NetlinkManager} {responses : List NetlinkResponse}
    (h : s.Holds pointers.nlSocket pointers.linkCache others manager)
    (hRun : Runs (serve texts pointers requests) s responses t) :
    requests.length = responses.length ∧
      ∃ after, History (Answers texts) manager (requests.zip responses) after ∧
        t.Holds pointers.nlSocket pointers.linkCache others after := by
  induction requests generalizing s manager responses with
  | nil =>
      obtain ⟨rfl, rfl⟩ := Program.runs_done_iff.mp hRun
      exact ⟨rfl, manager, .nil, h⟩
  | cons first rest ih =>
      obtain ⟨request, memory⟩ := first
      obtain ⟨response, middle, hRequest, hRun⟩ := Program.runs_bind_iff.mp hRun
      obtain ⟨left, last, hServe, hDone⟩ := Program.runs_bind_iff.mp hRun
      obtain ⟨rfl, rfl⟩ := Program.runs_done_iff.mp hDone
      obtain ⟨between, hFirst, hMiddle⟩ := processRequest_implements texts request memory
        others s manager response middle h hRequest
      obtain ⟨hLength, after, hServed, hLast⟩ := ih hMiddle hServe
      exact ⟨congrArg (· + 1) hLength, after, History.cons_iff.mpr ⟨between, hFirst, hServed⟩, hLast⟩

/-- From the constructor to the destructor, for all requests and whatever fails: no call gets
a pointer that is not to a live object of its type, nothing is live in the end, and the
responses and the links of the kernel are those of the model of whole functions. -/
theorem lifetime_clean (kernel : LinkTable) (requests : List (NetlinkRequest × List UInt8))
    (faults : Nat → LibnlFault) :
    let done := (lifetime texts requests).run (Guarded.alone Libnl.handle) faults (Libnl.start kernel)
    done.2.misused = false ∧ (∀ p, done.2.object p = none) ∧
      match done.1 with
      | none => done.2.kernel = kernel
      | some responses => requests.length = responses.length ∧
          ∃ manager, History (Answers texts) ⟨kernel, kernel.links⟩ (requests.zip responses) manager ∧
            done.2.kernel = manager.kernel := by
  intro done
  have hRun : Runs (lifetime texts requests) (Libnl.start kernel) done.1 done.2 := ⟨faults, rfl⟩
  obtain ⟨result, last⟩ := done
  obtain ⟨⟨code, pointers⟩, ready, hInitialized, hRun⟩ := Program.runs_bind_iff.mp hRun
  rcases runs_initialization (Libnl.live_start kernel) hInitialized with
    ⟨hFailed, hLive⟩ | ⟨hCode, hSocket, hCache, hHolds⟩
  · obtain ⟨rfl, rfl⟩ := Prod.mk.inj hFailed
    obtain ⟨_, cleaned, hCleanup, hDone⟩ := Program.runs_bind_iff.mp hRun
    obtain ⟨_, rfl⟩ := Program.runs_done_iff.mp hCleanup
    obtain ⟨rfl, rfl⟩ := Program.runs_done_iff.mp hDone
    exact ⟨hLive.unmisused, fun p => congrFun hLive.objects p, hLive.kernel⟩
  · simp only at hCode hSocket hCache hHolds
    rw [if_neg (by omega)] at hRun
    obtain ⟨responses, served, hServe, hRun⟩ := Program.runs_bind_iff.mp hRun
    obtain ⟨hLength, manager, hServed, hAfter⟩ := runs_serve texts hHolds hServe
    obtain ⟨_, cleaned, hCleanup, hDone⟩ := Program.runs_bind_iff.mp hRun
    obtain ⟨rfl, rfl⟩ := Program.runs_done_iff.mp hDone
    have hLive := runs_cleanup hSocket hCache hAfter hCleanup
    exact ⟨hLive.unmisused, fun p => congrFun hLive.objects p, hLength, manager, hServed, hLive.kernel⟩

end NetlinkProgram
end HyCAN
