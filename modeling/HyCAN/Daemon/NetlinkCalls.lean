import HyCAN.Daemon.NetlinkProgram

/-! What each call of libnl leaves of the objects, when it is made on pointers that the
manager has: one rule for each, from a run that begins with the call to the run after it. -/
namespace HyCAN

open Transition

namespace Libnl

/-- The manager as it is seen through its two pointers, and what else is live. -/
structure Holds (nlSocket linkCache : Nat) (others : Nat → Option NlObject) (s : Libnl)
    (manager : NetlinkManager) : Prop where
  kernel : s.kernel = manager.kernel
  cache : s.object linkCache = some (.cache manager.linkCache)
  rest : ∀ p, p ≠ linkCache → s.object p = others p
  socket : others nlSocket = some (.socket true)
  apart : others linkCache = none
  unmisused : s.misused = false

namespace Holds

variable {nlSocket linkCache p : Nat} {others : Nat → Option NlObject} {s : Libnl}
  {manager : NetlinkManager} {object : NlObject}

theorem ne_cache (h : Holds nlSocket linkCache others s manager) (hOther : others p = some object) :
    p ≠ linkCache := by
  rintro rfl
  rw [h.apart] at hOther
  cases hOther

theorem object_eq (h : Holds nlSocket linkCache others s manager) (hOther : others p = some object) :
    s.object p = some object := by
  rw [h.rest p (h.ne_cache hOther), hOther]

theorem object_socket (h : Holds nlSocket linkCache others s manager) :
    s.object nlSocket = some (.socket true) :=
  h.object_eq h.socket

/-- Nothing is behind the next pointer yet. -/
theorem others_next (h : Holds nlSocket linkCache others s manager) :
    s.arena.next ≠ linkCache ∧ others s.arena.next = none := by
  have hNone : s.object s.arena.next = none := Ownership.Arena.objects_next
  have hNe : s.arena.next ≠ linkCache := by
    intro hSame
    rw [hSame, h.cache] at hNone
    cases hNone
  exact ⟨hNe, by rw [← h.rest _ hNe, hNone]⟩

theorem update (h : Holds nlSocket linkCache others s manager) {after : Libnl}
    {content : Option NlObject} (hNe : p ≠ linkCache) (hSocket : p ≠ nlSocket)
    (hObjects : after.arena.objects = Function.update s.arena.objects p content)
    (hKernel : after.kernel = s.kernel) (hMisused : after.misused = s.misused) :
    Holds nlSocket linkCache (Function.update others p content) after manager where
  kernel := hKernel.trans h.kernel
  cache := by
    rw [object, hObjects, Function.update_of_ne hNe.symm]
    exact h.cache
  rest q hOther := by
    rw [object, hObjects]
    by_cases hSame : q = p
    · rw [hSame, Function.update_self, Function.update_self]
    · rw [Function.update_of_ne hSame, Function.update_of_ne hSame]
      exact h.rest q hOther
  socket := by rw [Function.update_of_ne hSocket.symm, h.socket]
  apart := by rw [Function.update_of_ne hNe.symm, h.apart]
  unmisused := hMisused.trans h.unmisused

theorem alloc (h : Holds nlSocket linkCache others s manager) (object : NlObject) :
    Holds nlSocket linkCache (Function.update others s.arena.next (some object)) (s.alloc object).2
      manager := by
  obtain ⟨hNe, hNone⟩ := h.others_next
  refine h.update hNe ?_ rfl rfl rfl
  intro hSame
  rw [hSame, h.socket] at hNone
  cases hNone

theorem release (h : Holds nlSocket linkCache others s manager) (hOther : others p = some object)
    (hSocket : p ≠ nlSocket) :
    Holds nlSocket linkCache (Function.update others p none) (s.release p) manager :=
  h.update (h.ne_cache hOther) hSocket rfl rfl rfl

theorem write (h : Holds nlSocket linkCache others s manager) (hOther : others p = some object)
    (hSocket : p ≠ nlSocket) (content : NlObject) :
    Holds nlSocket linkCache (Function.update others p (some content)) (s.write p content) manager :=
  h.update (h.ne_cache hOther) hSocket (Ownership.Arena.objects_write (h.object_eq hOther) content) rfl rfl

/-- Other contents for the cache. -/
theorem writeCache (h : Holds nlSocket linkCache others s manager) (links : List Link) :
    Holds nlSocket linkCache others (s.write linkCache (.cache links)) { manager with linkCache := links } where
  kernel := h.kernel
  cache := by
    rw [object, Libnl.write, Ownership.Arena.objects_write h.cache, Function.update_self]
  rest q hOther := by
    rw [object, Libnl.write, Ownership.Arena.objects_write h.cache, Function.update_of_ne hOther]
    exact h.rest q hOther
  socket := h.socket
  apart := h.apart
  unmisused := h.unmisused

theorem setRequest (h : Holds nlSocket linkCache others s manager) {request : LinkRequest}
    (hOther : others p = some (.request request)) (set : LinkRequest → LinkRequest) :
    Holds nlSocket linkCache (Function.update others p (some (.request (set request))))
      (s.setRequest p set) manager := by
  have hSocket : p ≠ nlSocket := by
    rintro rfl
    simp [h.socket] at hOther
  simp only [Libnl.setRequest, h.object_eq hOther]
  exact h.write hOther hSocket _

/-- The kernel's links change, and nothing else does. -/
theorem withKernel (h : Holds nlSocket linkCache others s manager) (kernel : LinkTable) :
    Holds nlSocket linkCache others { s with kernel } { manager with kernel } :=
  ⟨rfl, h.cache, h.rest, h.socket, h.apart, h.unmisused⟩

end Holds
end Libnl

namespace NetlinkProgram

variable {Result : Type} {nlSocket linkCache p : Nat} {others : Nat → Option NlObject} {s t : Libnl}
  {manager : NetlinkManager} {result : Result}

abbrev Runs (program : NetlinkProgram Result) (before : Libnl) (result : Result) (after : Libnl) : Prop :=
  Program.Runs (Guarded.alone Libnl.handle) program before result after

theorem runs_ask_iff {call : LibnlCall} {next : call.Answer → NetlinkProgram Result} :
    Runs (ask call next) s result t ↔
      ∃ fault, Runs (next (Libnl.handle call fault s).1) (Libnl.handle call fault s).2 result t :=
  Program.runs_ask_iff

section Calls

variable (h : s.Holds nlSocket linkCache others manager)

include h

theorem runs_nlCacheRefill {next : Int → NetlinkProgram Result}
    (hRun : Runs (ask (.nlCacheRefill nlSocket linkCache) next) s result t) :
    ∃ refill after, Libnl.Holds nlSocket linkCache others after (manager.refill refill).2 ∧
      Runs (next (if refill = .ok then 0 else -1)) after result t := by
  obtain ⟨fault, hRest⟩ := runs_ask_iff.mp hRun
  simp only [Libnl.handle, Libnl.refillCache, h.object_socket, h.cache] at hRest
  cases hRefill : fault.refill with
  | ok =>
      rw [hRefill, h.kernel] at hRest
      exact ⟨.ok, _, h.writeCache manager.kernel.links, hRest⟩
  | refused =>
      rw [hRefill] at hRest
      exact ⟨.refused, _, h, hRest⟩
  | cutShort count =>
      rw [hRefill, h.kernel] at hRest
      exact ⟨.cutShort count, _, h.writeCache (manager.kernel.links.take count), hRest⟩

/-- A link object that is not there, or a reference to one. -/
theorem runs_rtnlLinkGetByName {name : List UInt8} {next : Option Nat → NetlinkProgram Result}
    (hRun : Runs (ask (.rtnlLinkGetByName linkCache name) next) s result t) :
    (manager.cached name = none ∧ Runs (next none) s result t) ∨
      ∃ link p after, manager.cached name = some link ∧ others p = none ∧
        Libnl.Holds nlSocket linkCache (Function.update others p (some (.link link))) after manager ∧
        Runs (next (some p)) after result t := by
  obtain ⟨fault, hRest⟩ := runs_ask_iff.mp hRun
  simp only [Libnl.handle, h.cache] at hRest
  cases hCached : manager.cached name with
  | none =>
      rw [show manager.linkCache.find? (fun link => link.name = name) = none from hCached] at hRest
      exact .inl ⟨rfl, hRest⟩
  | some link =>
      rw [show manager.linkCache.find? (fun link => link.name = name) = some link from hCached] at hRest
      exact .inr ⟨link, _, _, rfl, h.others_next.2, h.alloc (.link link), hRest⟩

theorem runs_rtnlLinkGetFlags {link : Link} (hLink : others p = some (.link link))
    {next : Bool → NetlinkProgram Result} (hRun : Runs (ask (.rtnlLinkGetFlags p) next) s result t) :
    Runs (next link.up) s result t := by
  obtain ⟨fault, hRest⟩ := runs_ask_iff.mp hRun
  simpa only [Libnl.handle, h.object_eq hLink] using hRest

theorem runs_rtnlLinkIsCan {link : Link} (hLink : others p = some (.link link))
    {next : Bool → NetlinkProgram Result} (hRun : Runs (ask (.rtnlLinkIsCan p) next) s result t) :
    Runs (next (link.kind = .can)) s result t := by
  obtain ⟨fault, hRest⟩ := runs_ask_iff.mp hRun
  simpa only [Libnl.handle, h.object_eq hLink] using hRest

/-- A reference to a link, or a request, is put. -/
theorem runs_rtnlLinkPut (hPut : (∃ link, others p = some (.link link)) ∨
      ∃ request, others p = some (.request request))
    {next : Unit → NetlinkProgram Result} (hRun : Runs (ask (.rtnlLinkPut p) next) s result t) :
    ∃ after, Libnl.Holds nlSocket linkCache (Function.update others p none) after manager ∧
      Runs (next ()) after result t := by
  obtain ⟨fault, hRest⟩ := runs_ask_iff.mp hRun
  rcases hPut with ⟨link, hOther⟩ | ⟨request, hOther⟩
  all_goals
    have hSocket : p ≠ nlSocket := by
      rintro rfl
      simp [h.socket] at hOther
    simp only [Libnl.handle, h.object_eq hOther] at hRest
    exact ⟨_, h.release hOther hSocket, hRest⟩

theorem runs_rtnlLinkAlloc {next : Option Nat → NetlinkProgram Result}
    (hRun : Runs (ask .rtnlLinkAlloc next) s result t) :
    Runs (next none) s result t ∨
      ∃ p after, others p = none ∧
        Libnl.Holds nlSocket linkCache (Function.update others p (some (.request {}))) after manager ∧
        Runs (next (some p)) after result t := by
  obtain ⟨fault, hRest⟩ := runs_ask_iff.mp hRun
  simp only [Libnl.handle] at hRest
  cases hFails : fault.fails with
  | true =>
      rw [hFails] at hRest
      exact .inl hRest
  | false =>
      rw [hFails] at hRest
      exact .inr ⟨_, _, h.others_next.2, h.alloc (.request {}), hRest⟩

/-- A call that only writes into a request. -/
theorem runs_set (set : LinkRequest → LinkRequest) {call : LibnlCall} (answer : call.Answer)
    {request : LinkRequest} (hOther : others p = some (.request request))
    (hCall : ∀ fault before, Libnl.handle call fault before = (answer, before.setRequest p set))
    {next : call.Answer → NetlinkProgram Result} (hRun : Runs (ask call next) s result t) :
    ∃ after, Libnl.Holds nlSocket linkCache (Function.update others p (some (.request (set request)))) after
        manager ∧ Runs (next answer) after result t := by
  obtain ⟨fault, hRest⟩ := runs_ask_iff.mp hRun
  rw [hCall] at hRest
  exact ⟨_, h.setRequest hOther set, hRest⟩

theorem runs_rtnlLinkSetType {kind : LinkKind} {request : LinkRequest}
    (hOther : others p = some (.request request)) {next : Int → NetlinkProgram Result}
    (hRun : Runs (ask (.rtnlLinkSetType p kind) next) s result t) :
    (∃ after, Libnl.Holds nlSocket linkCache others after manager ∧ Runs (next (-1)) after result t) ∨
      ∃ after, Libnl.Holds nlSocket linkCache
          (Function.update others p (some (.request { request with kind := some kind }))) after manager ∧
        Runs (next 0) after result t := by
  obtain ⟨fault, hRest⟩ := runs_ask_iff.mp hRun
  simp only [Libnl.handle] at hRest
  cases hFails : fault.fails with
  | true =>
      rw [hFails] at hRest
      have hSame : Function.update others p (some (.request (id request))) = others := by
        rw [id_eq, ← hOther, Function.update_eq_self]
      exact .inl ⟨_, hSame ▸ h.setRequest hOther id, hRest⟩
  | false =>
      simp only [hFails, Bool.false_eq_true, ↓reduceIte] at hRest
      exact .inr ⟨_, h.setRequest hOther ({ · with kind := some kind }), hRest⟩

/-- The kernel's answer to a change that is filled in as the daemon does it. -/
theorem runs_rtnlLinkChange {link change : Nat} {object : Link} {request : LinkRequest} {asked : LinkChange}
    (hLink : others link = some (.link object)) (hChange : others change = some (.request request))
    (hAsked : request.change? = some asked) {next : Int → NetlinkProgram Result}
    (hRun : Runs (ask (.rtnlLinkChange nlSocket link change) next) s result t) :
    ∃ refusal after, Libnl.Holds nlSocket linkCache others after
        { manager with kernel := (manager.kernel.rtnlLinkChange object asked refusal).2 } ∧
      Runs (next (manager.kernel.rtnlLinkChange object asked refusal).1) after result t := by
  obtain ⟨fault, hRest⟩ := runs_ask_iff.mp hRun
  simp only [Libnl.handle, Libnl.changeLink, h.object_socket, h.object_eq hLink, h.object_eq hChange,
    hAsked, h.kernel] at hRest
  exact ⟨fault.refusal, _, h.withKernel _, hRest⟩

theorem runs_ifNametoindex {name : List UInt8} {next : Except Int Nat → NetlinkProgram Result}
    (hRun : Runs (ask (.ifNametoindex name) next) s result t) :
    (∃ errno, errno ≠ noDevice ∧ Runs (next (.error errno)) s result t) ∨
      (∃ link, manager.kernel.byName (ioctlName name) = some link ∧
        Runs (next (.ok link.index)) s result t) ∨
      (manager.kernel.byName (ioctlName name) = none ∧ Runs (next (.error noDevice)) s result t) := by
  obtain ⟨fault, hRest⟩ := runs_ask_iff.mp hRun
  simp only [Libnl.handle, h.kernel] at hRest
  cases hErrno : fault.errno.filter (· ≠ noDevice) with
  | some errno =>
      rw [hErrno] at hRest
      have hNe := (Option.filter_eq_some_iff.mp hErrno).2
      exact .inl ⟨errno, by simpa using hNe, hRest⟩
  | none =>
      rw [hErrno] at hRest
      cases hLink : manager.kernel.byName (ioctlName name) with
      | some link =>
          rw [hLink] at hRest
          exact .inr (.inl ⟨link, rfl, hRest⟩)
      | none =>
          rw [hLink] at hRest
          exact .inr (.inr ⟨rfl, hRest⟩)

theorem runs_nlSocketAlloc {next : Option Nat → NetlinkProgram Result}
    (hRun : Runs (ask .nlSocketAlloc next) s result t) :
    Runs (next none) s result t ∨
      ∃ p after, others p = none ∧ p ≠ nlSocket ∧
        Libnl.Holds nlSocket linkCache (Function.update others p (some (.socket false))) after manager ∧
        Runs (next (some p)) after result t := by
  obtain ⟨fault, hRest⟩ := runs_ask_iff.mp hRun
  simp only [Libnl.handle] at hRest
  cases hFails : fault.fails with
  | true =>
      rw [hFails] at hRest
      exact .inl hRest
  | false =>
      rw [hFails] at hRest
      have hFree := h.others_next.2
      refine .inr ⟨_, _, hFree, ?_, h.alloc (.socket false), hRest⟩
      intro hSame
      rw [hSame, h.socket] at hFree
      cases hFree

theorem runs_nlConnect (hOther : others p = some (.socket false)) (hOwn : p ≠ nlSocket)
    {next : Int → NetlinkProgram Result} (hRun : Runs (ask (.nlConnect p) next) s result t) :
    Runs (next (-1)) s result t ∨
      ∃ after, Libnl.Holds nlSocket linkCache (Function.update others p (some (.socket true))) after manager ∧
        Runs (next 0) after result t := by
  obtain ⟨fault, hRest⟩ := runs_ask_iff.mp hRun
  simp only [Libnl.handle, h.object_eq hOther] at hRest
  cases hFails : fault.fails with
  | true =>
      rw [hFails] at hRest
      exact .inl hRest
  | false =>
      rw [hFails] at hRest
      exact .inr ⟨_, h.write hOther hOwn _, hRest⟩

theorem runs_nlClose {connected : Bool} (hOther : others p = some (.socket connected)) (hOwn : p ≠ nlSocket)
    {next : Unit → NetlinkProgram Result} (hRun : Runs (ask (.nlClose p) next) s result t) :
    ∃ after, Libnl.Holds nlSocket linkCache (Function.update others p (some (.socket false))) after manager ∧
      Runs (next ()) after result t := by
  obtain ⟨fault, hRest⟩ := runs_ask_iff.mp hRun
  simp only [Libnl.handle, h.object_eq hOther] at hRest
  exact ⟨_, h.write hOther hOwn _, hRest⟩

theorem runs_nlSocketFree {connected : Bool} (hOther : others p = some (.socket connected))
    (hOwn : p ≠ nlSocket) {next : Unit → NetlinkProgram Result}
    (hRun : Runs (ask (.nlSocketFree p) next) s result t) :
    ∃ after, Libnl.Holds nlSocket linkCache (Function.update others p none) after manager ∧
      Runs (next ()) after result t := by
  obtain ⟨fault, hRest⟩ := runs_ask_iff.mp hRun
  simp only [Libnl.handle, h.object_eq hOther] at hRest
  exact ⟨_, h.release hOther hOwn, hRest⟩

/-- The kernel's answer to a request for a new link. One that has lost its type is refused
like any other, unless there is a link of that name. -/
theorem runs_rtnlLinkAdd {socket link : Nat} {name : List UInt8} {kind : Option LinkKind}
    (hSocket : others socket = some (.socket true))
    (hLink : others link = some (.request { name := some name, kind }))
    (hKind : kind = some .vcan ∨ kind = none) {next : Int → NetlinkProgram Result}
    (hRun : Runs (ask (.rtnlLinkAdd socket link) next) s result t) :
    ∃ outcome after, Libnl.Holds nlSocket linkCache others after
        { manager with kernel := (manager.kernel.rtnlLinkAdd name outcome).2 } ∧
      Runs (next (manager.kernel.rtnlLinkAdd name outcome).1) after result t := by
  obtain ⟨fault, hRest⟩ := runs_ask_iff.mp hRun
  simp only [Libnl.handle, Libnl.addLink, h.object_eq hSocket, h.object_eq hLink] at hRest
  rcases hKind with rfl | rfl
  · rw [h.kernel] at hRest
    exact ⟨fault.add, _, h.withKernel _, hRest⟩
  · cases hAdd : fault.add with
    | refused code =>
        rw [hAdd] at hRest
        exact ⟨.refused code, _, h, hRest⟩
    | accepted index number =>
        rw [hAdd, h.kernel] at hRest
        cases hTaken : manager.kernel.byName (name.take (ifNameSize - 1)) with
        | some link =>
            simp only [hTaken, Option.isSome_some, ↓reduceIte] at hRest
            obtain ⟨hMem, hName⟩ := LinkTable.byName_eq_some_iff.mp hTaken
            have hSame : manager.kernel.rtnlLinkAdd name (.accepted index number) = (0, manager.kernel) :=
              if_pos (List.mem_map.mpr ⟨link, hMem, hName⟩)
            exact ⟨.accepted index number, s, by rw [hSame]; exact h, by rw [hSame]; exact hRest⟩
        | none =>
            simp only [hTaken, Option.isSome_none, Bool.false_eq_true, ↓reduceIte] at hRest
            exact ⟨.refused 9, s, h, hRest⟩

end Calls

end NetlinkProgram
end HyCAN
