import HyCAN.Daemon.Confinement
import HyCAN.Transition.Commutation
import Mathlib.Data.List.Forall2

/-! What the order of requests, and what the cache was left with, has to do with the answers:
nothing, as long as no two requests are to set the same link and none is to create one. -/
namespace HyCAN

open Transition

/-- The same link, as far as what is in the part of these names goes. -/
def Link.Like (names : Set (List UInt8)) (first second : Link) : Prop :=
  first.index = second.index ∧ first.name = second.name ∧ (first.name ∈ names → first = second)

theorem Link.Like.refl (names : Set (List UInt8)) (link : Link) : link.Like names link :=
  ⟨rfl, rfl, fun _ => rfl⟩

namespace LinkTable

/-- Tables with the same links in the same places, where those of other names may be in
another state. -/
def Same (names : Set (List UInt8)) (first second : LinkTable) : Prop :=
  List.Forall₂ (Link.Like names) first.links second.links

/-- The part of a name is the link of that name. -/
def parts : Parts (List UInt8) LinkTable where
  Same := Same
  refl names table := List.forall₂_same.mpr fun link _ => .refl names link
  symm h := by
    apply List.Forall₂.flip
    apply h.imp
    rintro first second ⟨hIndex, hName, hLink⟩
    exact ⟨hIndex.symm, hName.symm, fun hMem => (hLink (hName ▸ hMem)).symm⟩
  trans {names first second third} h hNext := by
    unfold Same at *
    generalize first.links = firstLinks at *
    generalize second.links = secondLinks at *
    generalize third.links = thirdLinks at *
    induction h generalizing thirdLinks with
    | nil => exact hNext
    | cons hHead _ ih =>
        cases hNext with
        | cons hNextHead hNextTail =>
            refine .cons ⟨hHead.1.trans hNextHead.1, hHead.2.1.trans hNextHead.2.1, ?_⟩ (ih _ hNextTail)
            intro hMem
            exact (hHead.2.2 hMem).trans (hNextHead.2.2 (hHead.2.1 ▸ hMem))
  mono hNames h := h.imp fun _ _ hLike => ⟨hLike.1, hLike.2.1, fun hMem => hLike.2.2 (hNames hMem)⟩
  union h hMore := by
    apply h.mp _ hMore
    rintro first second hLike ⟨_, _, hOther⟩
    refine ⟨hLike.1, hLike.2.1, ?_⟩
    rintro (hMem | hMem)
    · exact hLike.2.2 hMem
    · exact hOther hMem
  eq_of_univ h := by
    apply eq_of_links
    rw [← List.forall₂_eq_eq_eq]
    exact h.imp fun _ _ hLike => hLike.2.2 (Set.mem_univ _)

variable {name : List UInt8} {names : Set (List UInt8)} {first second : LinkTable}

/-- Where the link of one name changes, all others stay in their places as they are. -/
theorem ChangedAt.same {before after : LinkTable} (h : ChangedAt name before after) :
    Same ({name}ᶜ) before after := by
  induction h with
  | refl table => exact parts.refl _ table
  | @change table after link c hLink _ ih =>
      obtain ⟨hMem, hName⟩ := byName_eq_some_iff.mp hLink
      refine parts.trans ?_ ih
      apply List.forall₂_map_right_iff.mpr
      rw [List.forall₂_same]
      intro other hOther
      refine ⟨(changeAt_index _ _ _).symm, (changeAt_name _ _ _).symm, ?_⟩
      intro hOtherName
      have hIndex : other.index ≠ link.index := by
        intro hSame
        rw [eq_of_index hOther hMem hSame, hName] at hOtherName
        exact hOtherName rfl
      rw [changeAt, if_neg hIndex]

/-- A change in both. -/
theorem Same.change (h : Same names first second) (index : Nat) (c : LinkChange) :
    Same names (first.change index c) (second.change index c) := by
  apply List.forall₂_map_left_iff.mpr
  apply List.forall₂_map_right_iff.mpr
  apply h.imp
  rintro one other ⟨hIndex, hName, hLike⟩
  refine ⟨by simpa using hIndex, by simpa using hName, ?_⟩
  intro hMem
  rw [changeAt_name] at hMem
  rw [hLike hMem]

end LinkTable

/-- In lists of such links the one of a name is the same. -/
theorem find?_of_like {name : List UInt8} {first second : List Link}
    (h : List.Forall₂ (Link.Like {name}) first second) :
    (first.find? fun link => link.name = name) = second.find? fun link => link.name = name := by
  induction h with
  | nil => rfl
  | @cons one other _ _ hHead _ ih =>
      by_cases hName : one.name = name
      · have hSame : one = other := hHead.2.2 hName
        rw [List.find?_cons_of_pos (by simpa using hName), List.find?_cons_of_pos (by simpa [← hSame] using hName),
          hSame]
      · have hOther : other.name ≠ name := hHead.2.1 ▸ hName
        rw [List.find?_cons_of_neg (by simpa using hName), List.find?_cons_of_neg (by simpa using hOther), ih]

theorem LinkTable.Same.byName {name : List UInt8} {first second : LinkTable} (h : Same {name} first second) :
    first.byName name = second.byName name := find?_of_like h

namespace NetlinkManager

variable {name : List UInt8} {first second : NetlinkManager}

/-- Managers that cannot be told apart by requests to set the link of the name. -/
structure Like (name : List UInt8) (first second : NetlinkManager) : Prop where
  kernel : LinkTable.Same {name} first.kernel second.kernel
  cache : List.Forall₂ (Link.Like {name}) first.linkCache second.linkCache
  recent : first.Recent name

namespace Like

theorem cached (h : Like name first second) : first.cached name = second.cached name :=
  find?_of_like h.cache

theorem fresh (h : LinkTable.Same {name} first.kernel second.kernel) : Like name first.fresh second.fresh where
  kernel := h
  cache := h
  recent := recent_fresh first name

theorem refill (h : Like name first second) (fault : Refill) :
    (first.refill fault).1 = (second.refill fault).1 ∧
      Like name (first.refill fault).2 (second.refill fault).2 := by
  cases fault with
  | ok => exact ⟨rfl, fresh h.kernel⟩
  | refused => exact ⟨rfl, h⟩
  | cutShort count =>
      exact ⟨rfl, h.kernel, List.forall₂_take count h.kernel, h.recent.refill (.cutShort count)⟩

/-- The link that both have under the name is changed in both. -/
theorem change (h : Like name first second) {link : Link} (hLink : first.kernel.byName name = some link)
    (c : LinkChange) : Like name { first with kernel := first.kernel.change link.index c }
      { second with kernel := second.kernel.change link.index c } where
  kernel := h.kernel.change link.index c
  cache := h.cache
  recent := h.recent.change hLink

/-- A change asked for with what the cache has under the name. -/
theorem rtnlLinkChange (h : Like name first second) {link : Link} (hCached : first.cached name = some link)
    (c : LinkChange) (refusal : Option Nat) :
    (first.kernel.rtnlLinkChange link c refusal).1 = (second.kernel.rtnlLinkChange link c refusal).1 ∧
      Like name { first with kernel := (first.kernel.rtnlLinkChange link c refusal).2 }
        { second with kernel := (second.kernel.rtnlLinkChange link c refusal).2 } := by
  obtain ⟨target, hTarget, hIndex, _⟩ := h.recent link hCached
  have hOther : second.kernel.byName name = some target := h.kernel.byName ▸ hTarget
  cases refusal with
  | some code => exact ⟨rfl, h⟩
  | none =>
      rw [rtnlLinkChange_of_mem (LinkTable.byName_eq_some_iff.mp hTarget).1 hIndex,
        rtnlLinkChange_of_mem (LinkTable.byName_eq_some_iff.mp hOther).1 hIndex]
      cases c.refusedOn target with
      | some code => exact ⟨rfl, h⟩
      | none =>
          rw [← hIndex]
          exact ⟨rfl, h.change hTarget c⟩

end Like

/-- Responses are the same, and what is left cannot be told apart by requests for the name. -/
abbrev Alike (name : List UInt8) (one other : NetlinkResponse × NetlinkManager) : Prop :=
  one.1 = other.1 ∧ Like name one.2 other.2

variable (texts : ErrorTexts)

theorem Like.checkInterfaceIsUp (h : Like name first second) (fault : Refill) :
    Alike name (first.checkInterfaceIsUp name fault) (second.checkInterfaceIsUp name fault) := by
  obtain ⟨hSame, hLike⟩ := h.refill fault
  unfold NetlinkManager.checkInterfaceIsUp
  generalize first.refill fault = one at *
  generalize second.refill fault = other at *
  obtain ⟨filled, one⟩ := one
  obtain ⟨_, other⟩ := other
  cases hSame
  cases filled with
  | false => exact ⟨rfl, hLike⟩
  | true =>
      have hCached : one.cached name = other.cached name := hLike.cached
      dsimp only
      rw [hCached]
      cases other.cached name <;> exact ⟨rfl, hLike⟩

theorem Like.checkInterfaceExists (h : Like name first second) (fault : Refill) :
    (first.checkInterfaceExists name fault).1 = (second.checkInterfaceExists name fault).1 := by
  obtain ⟨hSame, hLike⟩ := h.refill fault
  unfold NetlinkManager.checkInterfaceExists
  generalize first.refill fault = one at *
  generalize second.refill fault = other at *
  obtain ⟨filled, one⟩ := one
  obtain ⟨_, other⟩ := other
  cases hSame
  cases filled with
  | false => rfl
  | true =>
      have hCached : one.cached name = other.cached name := hLike.cached
      dsimp only
      rw [hCached]

theorem Like.setInterfaceStateLibnl (h : Like name first second) (up : Bool) (faults : StateFaults) :
    Alike name (first.setInterfaceStateLibnl texts name up faults)
      (second.setInterfaceStateLibnl texts name up faults) := by
  obtain ⟨hSame, hLike⟩ := h.refill faults.refill
  unfold NetlinkManager.setInterfaceStateLibnl
  generalize first.refill faults.refill = one at *
  generalize second.refill faults.refill = other at *
  obtain ⟨filled, one⟩ := one
  obtain ⟨_, other⟩ := other
  cases hSame
  cases filled with
  | false => exact ⟨rfl, hLike⟩
  | true =>
      have hCached : one.cached name = other.cached name := hLike.cached
      dsimp only
      cases hLink : one.cached name with
      | none =>
          rw [← hCached, hLink]
          exact ⟨rfl, hLike⟩
      | some link =>
          rw [← hCached, hLink]
          dsimp only
          obtain ⟨hResult, hChanged⟩ := hLike.rtnlLinkChange hLink (.state up) faults.refusal
          rw [← hResult]
          split
          · exact ⟨rfl, hLike⟩
          · split
            · exact ⟨rfl, hLike⟩
            · split
              · exact ⟨rfl, hChanged⟩
              · exact ⟨rfl, (hChanged.refill faults.refillAfter).2⟩

theorem Like.setCanBitrateLibnl (h : Like name first second) (bitrate : UInt32) (faults : BitrateFaults) :
    Alike name (first.setCanBitrateLibnl texts name bitrate faults)
      (second.setCanBitrateLibnl texts name bitrate faults) := by
  unfold NetlinkManager.setCanBitrateLibnl
  split
  · exact ⟨rfl, h⟩
  · cases hLink : first.cached name with
    | none =>
        rw [← h.cached, hLink]
        exact ⟨rfl, h⟩
    | some link =>
        rw [← h.cached, hLink]
        dsimp only
        obtain ⟨hResult, hChanged⟩ := h.rtnlLinkChange hLink (.bitrate bitrate) faults.refusal
        rw [← hResult]
        split
        · exact ⟨rfl, h⟩
        · split
          · split
            · exact ⟨rfl, h⟩
            · split <;> exact ⟨rfl, hChanged⟩
          · exact ⟨rfl, h⟩

theorem Like.setBitrateThenState (h : Like name first second) (request : NetlinkRequest)
    (faults : RequestFaults) :
    Alike name (first.setBitrateThenState texts request name faults)
      (second.setBitrateThenState texts request name faults) := by
  obtain ⟨hResponse, hLike⟩ := h.setCanBitrateLibnl texts request.bitrate faults.bitrate
  unfold NetlinkManager.setBitrateThenState
  dsimp only
  rw [← hResponse]
  split
  · exact ⟨hResponse, hLike⟩
  · exact hLike.setInterfaceStateLibnl texts request.up faults.final

theorem Like.lowerBeforeBitrate (h : Like name first second) (isUp : Bool) (faults : StateFaults) :
    Alike name (first.lowerBeforeBitrate texts name isUp faults)
      (second.lowerBeforeBitrate texts name isUp faults) := by
  cases isUp with
  | false => exact ⟨rfl, h⟩
  | true => exact h.setInterfaceStateLibnl texts false faults

theorem Like.processSetInterfaceState (h : Like name first second) (request : NetlinkRequest)
    (faults : RequestFaults) :
    Alike name (first.processSetInterfaceState texts request name faults)
      (second.processSetInterfaceState texts request name faults) := by
  unfold NetlinkManager.processSetInterfaceState
  split
  · obtain ⟨hChecked, hFresh⟩ := h.checkInterfaceIsUp faults.check
    dsimp only
    rw [← hChecked]
    split
    · exact ⟨hChecked, hFresh⟩
    · obtain ⟨hLowered, hLow⟩ := hFresh.lowerBeforeBitrate texts
        (first.checkInterfaceIsUp name faults.check).1.isUp faults.down
      rw [← hLowered]
      split
      · exact ⟨rfl, hLow⟩
      · exact hLow.setBitrateThenState texts request faults
  · exact h.setInterfaceStateLibnl texts request.up faults.final

/-- Responses are the same, and so are the links. -/
abbrev SameLinks (one other : NetlinkResponse × NetlinkManager) : Prop :=
  one.1 = other.1 ∧ one.2.kernel = other.2.kernel

section Cache

variable (h : first.kernel = second.kernel)
include h

theorem fresh_congr : first.fresh = second.fresh := by
  rw [fresh, fresh, h]

theorem refill_congr : first.refill .ok = second.refill .ok :=
  congrArg (Prod.mk true) (fresh_congr h)

theorem checkInterfaceExists_sameLinks (name : List UInt8) (fault : Refill) :
    SameLinks (first.checkInterfaceExists name fault) (second.checkInterfaceExists name fault) := by
  cases fault with
  | ok =>
      rw [checkInterfaceExists, refill_congr h]
      exact ⟨rfl, rfl⟩
  | refused | cutShort count => exact ⟨rfl, h⟩

theorem checkInterfaceIsUp_sameLinks (name : List UInt8) (fault : Refill) :
    SameLinks (first.checkInterfaceIsUp name fault) (second.checkInterfaceIsUp name fault) := by
  cases fault with
  | ok =>
      rw [checkInterfaceIsUp, refill_congr h]
      exact ⟨rfl, rfl⟩
  | refused | cutShort count => exact ⟨rfl, h⟩

theorem setInterfaceStateLibnl_sameLinks (name : List UInt8) (up : Bool) (faults : StateFaults) :
    SameLinks (first.setInterfaceStateLibnl texts name up faults)
      (second.setInterfaceStateLibnl texts name up faults) := by
  unfold setInterfaceStateLibnl
  cases faults.refill with
  | ok =>
      rw [refill_congr h]
      exact ⟨rfl, rfl⟩
  | refused | cutShort count => exact ⟨rfl, h⟩

/-- The bitrate goes to the link as the check has left the cache. -/
theorem processSetInterfaceState_sameLinks (request : NetlinkRequest) (name : List UInt8)
    (faults : RequestFaults) :
    SameLinks (first.processSetInterfaceState texts request name faults)
      (second.processSetInterfaceState texts request name faults) := by
  unfold processSetInterfaceState
  split
  · cases hFault : faults.check with
    | ok =>
        rw [checkInterfaceIsUp_ok, checkInterfaceIsUp_ok, fresh_congr h, h]
        exact ⟨rfl, rfl⟩
    | refused | cutShort count => exact ⟨rfl, h⟩
  · exact setInterfaceStateLibnl_sameLinks texts h name request.up faults.final

theorem processRequest_sameLinks (request : NetlinkRequest) (memory : List UInt8) (faults : RequestFaults) :
    SameLinks (first.processRequest texts request memory faults)
      (second.processRequest texts request memory faults) := by
  unfold processRequest
  cases RequestType.ofByte request.operation with
  | none => exact ⟨rfl, h⟩
  | some operation =>
      cases operation with
      | checkInterfaceState | validateCanHardware | clientRegister => exact ⟨rfl, h⟩
      | interfaceExists => exact checkInterfaceExists_sameLinks h _ _
      | interfaceIsUp => exact checkInterfaceIsUp_sameLinks h _ _
      | setInterfaceState => exact processSetInterfaceState_sameLinks texts h request _ faults
      | createVcanInterface =>
          dsimp only
          rw [h]
          generalize createVcanInterfaceIfNotExists texts second.kernel (request.name memory)
            faults.create = made
          obtain ⟨outcome, kernel⟩ := made
          cases outcome <;> exact ⟨rfl, rfl⟩

end Cache

end NetlinkManager

namespace Handled

/-- The link of the request. -/
def name (handled : Handled) : List UInt8 := handled.request.name handled.after

def operation (handled : Handled) : Option RequestType := RequestType.ofByte handled.request.operation

variable (texts : ErrorTexts)

def answer (handled : Handled) (manager : NetlinkManager) : NetlinkResponse × NetlinkManager :=
  manager.processRequest texts handled.request handled.after handled.faults

/-- The same, as the links alone have it, for an empty cache. -/
def answerOn (handled : Handled) (kernel : LinkTable) : NetlinkResponse × LinkTable :=
  let done := handled.answer texts ⟨kernel, []⟩
  (done.1, done.2.kernel)

theorem answer_eq (handled : Handled) (manager : NetlinkManager) :
    (handled.answer texts manager).1 = (handled.answerOn texts manager.kernel).1 ∧
      (handled.answer texts manager).2.kernel = (handled.answerOn texts manager.kernel).2 := by
  have hKernel : manager.kernel = (⟨manager.kernel, []⟩ : NetlinkManager).kernel := rfl
  exact NetlinkManager.processRequest_sameLinks texts hKernel handled.request handled.after handled.faults

/-- What requests are answered, and what they do to the links, has nothing to do with the cache. -/
theorem performAll_answer (requests : List Handled) (manager : NetlinkManager) :
    (performAll (answer texts) requests manager).1 = (performAll (answerOn texts) requests manager.kernel).1 ∧
      (performAll (answer texts) requests manager).2.kernel =
        (performAll (answerOn texts) requests manager.kernel).2 := by
  induction requests generalizing manager with
  | nil => exact ⟨rfl, rfl⟩
  | cons handled rest ih =>
      obtain ⟨hResponse, hKernel⟩ := handled.answer_eq texts manager
      obtain ⟨hResults, hLast⟩ := ih (handled.answer texts manager).2
      rw [hKernel] at hResults hLast
      simp only [performAll, hResponse, hResults, hLast, and_self]

/-- Managers whose links differ but for that of the name. -/
theorem like_of_same {name : List UInt8} {first second : LinkTable} (h : LinkTable.parts.Same {name} first second) :
    NetlinkManager.Like name ⟨first, []⟩ ⟨second, []⟩ :=
  ⟨h, .nil, fun link hLink => by simp [NetlinkManager.cached] at hLink⟩

/-- A request for the state of a link has to do with the link of its name alone. -/
theorem local_set {handled : Handled} (hOperation : handled.operation = some .setInterfaceState) :
    Local LinkTable.parts {handled.name} (handled.answerOn texts) := by
  have hAlike (first second : LinkTable) (h : LinkTable.parts.Same {handled.name} first second) :
      NetlinkManager.Alike handled.name (handled.answer texts ⟨first, []⟩) (handled.answer texts ⟨second, []⟩) := by
    unfold answer
    rw [NetlinkManager.processRequest_setInterfaceState texts _ _ hOperation,
      NetlinkManager.processRequest_setInterfaceState texts _ _ hOperation]
    exact (like_of_same h).processSetInterfaceState texts handled.request handled.faults
  refine ⟨fun kernel => ?_, fun first second h => (hAlike first second h).1,
    fun first second h => (hAlike first second h).2.kernel⟩
  have hSet := NetlinkManager.setOutcome_processRequest texts ⟨kernel, []⟩ handled.request hOperation
    handled.after handled.faults
  exact hSet.changedAt.same

/-- Whether the request is one that only asks. -/
def Asks (handled : Handled) : Prop :=
  handled.operation ≠ some .setInterfaceState ∧ handled.operation ≠ some .createVcanInterface

/-- Such a request leaves the links as they are. -/
theorem Asks.unchanged {handled : Handled} (h : handled.Asks) (kernel : LinkTable) :
    (handled.answerOn texts kernel).2 = kernel := by
  unfold answerOn answer NetlinkManager.processRequest
  obtain ⟨hSet, hCreate⟩ := h
  unfold operation at hSet hCreate
  generalize RequestType.ofByte handled.request.operation = operation at *
  match operation, hSet, hCreate with
  | none, _, _ => rfl
  | some .interfaceExists, _, _ => exact NetlinkManager.checkInterfaceExists_kernel ..
  | some .interfaceIsUp, _, _ => exact NetlinkManager.checkInterfaceIsUp_kernel ..
  | some .checkInterfaceState, _, _ => rfl
  | some .validateCanHardware, _, _ => rfl
  | some .clientRegister, _, _ => rfl
  | some .setInterfaceState, hSet, _ => exact absurd rfl hSet
  | some .createVcanInterface, _, hCreate => exact absurd rfl hCreate

/-- And is answered by what the link of its name is. -/
theorem Asks.local {handled : Handled} (h : handled.Asks) :
    Local LinkTable.parts {handled.name} (handled.answerOn texts) where
  frame kernel := by
    rw [h.unchanged]
    exact LinkTable.parts.refl _ kernel
  effect first second hSame := by
    rw [h.unchanged, h.unchanged]
    exact hSame
  result first second hSame := by
    have hLike := like_of_same hSame
    unfold answerOn answer NetlinkManager.processRequest
    obtain ⟨hSet, hCreate⟩ := h
    unfold operation at hSet hCreate
    generalize RequestType.ofByte handled.request.operation = operation at *
    match operation, hSet, hCreate with
    | none, _, _ => rfl
    | some .interfaceExists, _, _ => exact hLike.checkInterfaceExists handled.faults.check
    | some .interfaceIsUp, _, _ => exact (hLike.checkInterfaceIsUp handled.faults.check).1
    | some .checkInterfaceState, _, _ => rfl
    | some .validateCanHardware, _, _ => rfl
    | some .clientRegister, _, _ => rfl
    | some .setInterfaceState, hSet, _ => exact absurd rfl hSet
    | some .createVcanInterface, _, hCreate => exact absurd rfl hCreate

/-- Requests of which the order does not matter: neither creates a link, and they are for
different links unless both only ask. -/
def Independent (one other : Handled) : Prop :=
  one.operation ≠ some .createVcanInterface ∧ other.operation ≠ some .createVcanInterface ∧
    (one.name ≠ other.name ∨ one.Asks ∧ other.Asks)

theorem local_of_not_create {handled : Handled} (h : handled.operation ≠ some .createVcanInterface) :
    Local LinkTable.parts {handled.name} (handled.answerOn texts) := by
  by_cases hSet : handled.operation = some .setInterfaceState
  · exact local_set texts hSet
  · exact Asks.local texts ⟨hSet, h⟩

theorem Independent.commutes {one other : Handled} (h : one.Independent other) :
    Commutes (one.answerOn texts) (other.answerOn texts) := by
  obtain ⟨hOne, hOther, hNames | ⟨hAsks, hOtherAsks⟩⟩ := h
  · apply (local_of_not_create texts hOne).commutes (local_of_not_create texts hOther)
    rintro name rfl hSame
    exact hNames hSame
  · exact .of_unchanged (hAsks.unchanged texts) (hOtherAsks.unchanged texts)

end Handled

/-- A kernel with two CAN links that are down. -/
def twoCanLinks : LinkTable where
  links := [⟨3, ascii "can0", .can, false, 0⟩, ⟨4, ascii "can1", .can, false, 0⟩]
  indexNodup := by decide
  nameNodup := by decide +kernel
  nameValid := by decide +kernel

/-- To take the link up with a bitrate. -/
def bringsUp (name : String) : Handled := ⟨.ofState (ascii name) true true 500000, [], noFaults⟩

/-- Whatever links the cache was left with by what came before, the same requests with the
same failures get the same responses and do the same to the links. -/
theorem requests_ignore_cache (texts : ErrorTexts) (requests : List Handled) {manager other : NetlinkManager}
    (hKernel : manager.kernel = other.kernel) :
    (performAll (Handled.answer texts) requests manager).1 =
        (performAll (Handled.answer texts) requests other).1 ∧
      (performAll (Handled.answer texts) requests manager).2.kernel =
        (performAll (Handled.answer texts) requests other).2.kernel := by
  obtain ⟨hOne, hOneKernel⟩ := Handled.performAll_answer texts requests manager
  obtain ⟨hOther, hOtherKernel⟩ := Handled.performAll_answer texts requests other
  rw [hOne, hOther, hOneKernel, hOtherKernel, hKernel]
  exact ⟨rfl, rfl⟩

/-- A cache with a link of the name that the kernel does not have. -/
theorem requests_ignore_cache_stale :
    let texts : ErrorTexts := ⟨fun _ => [], fun _ => []⟩
    let stale : NetlinkManager := ⟨twoCanLinks, [⟨9, ascii "can0", .vcan, true, 0⟩]⟩
    (performAll (Handled.answer texts) [bringsUp "can0"] ⟨twoCanLinks, []⟩).1 =
        (performAll (Handled.answer texts) [bringsUp "can0"] stale).1 ∧
      (performAll (Handled.answer texts) [bringsUp "can0"] ⟨twoCanLinks, []⟩).2.kernel =
        (performAll (Handled.answer texts) [bringsUp "can0"] stale).2.kernel :=
  requests_ignore_cache _ _ rfl

/-- Whatever fails in each, and whatever the cache was left with: requests that are pairwise
independent get the same responses in any order, and leave the same links. -/
theorem requests_in_any_order (texts : ErrorTexts) {requests others : List Handled}
    (hPerm : requests.Perm others) (hIndependent : requests.Pairwise Handled.Independent)
    {manager other : NetlinkManager} (hKernel : manager.kernel = other.kernel) :
    (performAll (Handled.answer texts) requests manager).1.Perm
        (performAll (Handled.answer texts) others other).1 ∧
      (performAll (Handled.answer texts) requests manager).2.kernel =
        (performAll (Handled.answer texts) others other).2.kernel := by
  obtain ⟨hOne, hOneKernel⟩ := Handled.performAll_answer texts requests manager
  obtain ⟨hOther, hOtherKernel⟩ := Handled.performAll_answer texts others other
  rw [hOne, hOther, hOneKernel, hOtherKernel, ← hKernel]
  apply performAll_perm (Handled.answerOn texts) hPerm
  exact hIndependent.imp fun h => h.commutes texts
/-- Two links brought up, in both orders. -/
theorem requests_in_any_order_two :
    let texts : ErrorTexts := ⟨fun _ => [], fun _ => []⟩
    let manager : NetlinkManager := ⟨twoCanLinks, []⟩
    (performAll (Handled.answer texts) [bringsUp "can0", bringsUp "can1"] manager).1.Perm
        (performAll (Handled.answer texts) [bringsUp "can1", bringsUp "can0"] manager).1 ∧
      (performAll (Handled.answer texts) [bringsUp "can0", bringsUp "can1"] manager).2.kernel =
        (performAll (Handled.answer texts) [bringsUp "can1", bringsUp "can0"] manager).2.kernel := by
  have hNames : (bringsUp "can0").name ≠ (bringsUp "can1").name := by decide +kernel
  have hIndependent : (bringsUp "can0").Independent (bringsUp "can1") :=
    ⟨by decide +kernel, by decide +kernel, .inl hNames⟩
  exact requests_in_any_order _ (.swap _ _ _) (by simpa using hIndependent) rfl

end HyCAN
