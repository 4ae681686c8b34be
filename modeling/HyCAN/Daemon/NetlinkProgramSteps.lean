import HyCAN.Daemon.NetlinkCalls
import HyCAN.Daemon.NetlinkManagerSteps

/-! Each function of the manager, call by call, does what the model of whole functions
says, for some faults of that model, and leaves no other objects than it found. -/
namespace HyCAN

open Transition

namespace NetlinkManager

theorem checkInterfaceExists_ok (manager : NetlinkManager) (name : List UInt8) :
    manager.checkInterfaceExists name .ok =
      (.ofQuery 0 (manager.fresh.cached name).isSome false, manager.fresh) := rfl

theorem checkInterfaceIsUp_of_cached {manager : NetlinkManager} {name : List UInt8} {link : Link}
    (h : manager.fresh.cached name = some link) :
    manager.checkInterfaceIsUp name .ok = (.ofQuery 0 true link.up, manager.fresh) := by
  rw [checkInterfaceIsUp_ok, show manager.kernel.byName name = some link from h]

theorem checkInterfaceIsUp_of_not_cached {manager : NetlinkManager} {name : List UInt8}
    (h : manager.fresh.cached name = none) :
    manager.checkInterfaceIsUp name .ok = (.ofQuery 0 false false, manager.fresh) := by
  rw [checkInterfaceIsUp_ok, show manager.kernel.byName name = none from h]

/-- What `set_interface_state_libnl` makes of the kernel's answer. -/
def afterStateChange (texts : ErrorTexts) (manager : NetlinkManager) (link : Link) (up : Bool)
    (refusal : Option Nat) (refillAfter : Refill) : NetlinkResponse × NetlinkManager :=
  let changed := manager.kernel.rtnlLinkChange link (.state up) refusal
  if changed.1 < 0 then
    (.ofMessage changed.1 (ascii "rtnl_link_change failed: " ++ texts.nlGeterror changed.1),
      { manager with kernel := changed.2 })
  else (.ofMessage 0 (ascii "Success"), ({ manager with kernel := changed.2 }.refill refillAfter).2)

/-- From the link object on that the cache has after its refill. -/
theorem setInterfaceStateLibnl_ok (texts : ErrorTexts) (manager : NetlinkManager) (name : List UInt8)
    (up allocFails : Bool) (refusal : Option Nat) (refillAfter : Refill) :
    manager.setInterfaceStateLibnl texts name up ⟨.ok, allocFails, refusal, refillAfter⟩ =
      match manager.fresh.cached name with
      | none => (.ofMessage (-1) (ascii "Interface " ++ name ++ ascii " not found"), manager.fresh)
      | some link =>
        if link.up = up then
          (.ofMessage 0 (ascii "Interface " ++ name ++ ascii " is already " ++
            if up then ascii "up" else ascii "down"), manager.fresh)
        else if allocFails then
          (.ofMessage (-1) (ascii "Failed to allocate change link object"), manager.fresh)
        else manager.fresh.afterStateChange texts link up refusal refillAfter := rfl

/-- What `set_can_bitrate_libnl` makes of the kernel's answer. -/
def afterBitrateChange (texts : ErrorTexts) (manager : NetlinkManager) (link : Link) (bitrate : UInt32)
    (refusal : Option Nat) : NetlinkResponse × NetlinkManager :=
  let changed := manager.kernel.rtnlLinkChange link (.bitrate bitrate) refusal
  if changed.1 < 0 then
    (.ofMessage changed.1 (ascii "Failed to set CAN bitrate: " ++ texts.nlGeterror changed.1),
      { manager with kernel := changed.2 })
  else (.ofMessage 0 (ascii "CAN bitrate set successfully"), { manager with kernel := changed.2 })

/-- From the link object on that the cache has under a name with the prefix. -/
theorem setCanBitrateLibnl_of_prefix (texts : ErrorTexts) (manager : NetlinkManager) {name : List UInt8}
    (hPrefix : HasCanPrefix name) (bitrate : UInt32) (faults : BitrateFaults) :
    manager.setCanBitrateLibnl texts name bitrate faults =
      match manager.cached name with
      | none => (.ofMessage (-1) (ascii "CAN Interface " ++ name ++ ascii " not found"), manager)
      | some link =>
        if faults.allocFails then
          (.ofMessage (-1) (ascii "Failed to allocate change link object for CAN"), manager)
        else if link.kind = .can then
          if faults.typeFails then (.ofMessage (-1) (ascii "Failed to set link type to 'can'"), manager)
          else manager.afterBitrateChange texts link bitrate faults.refusal
        else (.ofMessage (-1) (ascii "Interface is not a CAN interface"), manager) :=
  if_neg (not_not.mpr hPrefix)

/-- What `create_vcan_interface_if_not_exists` makes of the kernel's answer. -/
def afterAdd (texts : ErrorTexts) (manager : NetlinkManager) (name : List UInt8) (outcome : AddOutcome) :
    Except (List UInt8) Unit × NetlinkManager :=
  let added := manager.kernel.rtnlLinkAdd name outcome
  (if added.1 < 0 then
      .error (ascii "Failed to create VCAN interface '" ++ name ++ ascii "': " ++ texts.strerror (-added.1))
    else .ok (),
    { manager with kernel := added.2 })

/-- `create_vcan_interface_if_not_exists` on the links of the manager. -/
def createVcan (texts : ErrorTexts) (manager : NetlinkManager) (name : List UInt8) (faults : CreateFaults) :
    Except (List UInt8) Unit × NetlinkManager :=
  let created := createVcanInterfaceIfNotExists texts manager.kernel name faults
  (created.1, { manager with kernel := created.2 })

theorem createVcan_of_none (texts : ErrorTexts) {manager : NetlinkManager} {name : List UInt8}
    (hNone : manager.kernel.byName (ioctlName name) = none) (outcome : AddOutcome) :
    manager.createVcan texts name ⟨none, false, false, false, outcome⟩ =
      manager.afterAdd texts name outcome := by
  unfold createVcan afterAdd createVcanInterfaceIfNotExists
  simp only [hNone, Option.isSome_none, Bool.false_eq_true, ↓reduceIte]
  split_ifs <;> rfl

/-- A refill that fails. -/
theorem refill_of_ne {refill : Refill} (hFails : refill ≠ .ok) (manager : NetlinkManager) :
    manager.refill refill = (false, (manager.refill refill).2) := by
  cases refill with
  | ok => exact absurd rfl hFails
  | refused | cutShort count => rfl

end NetlinkManager

namespace NetlinkProgram

variable {Result : Type} {nlSocket linkCache p : Nat} {others : Nat → Option NlObject} {s t : Libnl}
  {manager : NetlinkManager} {result : Result}

section Requests

variable (texts : ErrorTexts) {name : List UInt8}

/-- What was taken and put leaves nothing. -/
theorem update_none {first : Nat} (hFirst : others first = none) (object : Option NlObject) :
    Function.update (Function.update others first object) first none = others := by
  rw [Function.update_idem, ← hFirst, Function.update_eq_self]

/-- Whatever is live besides the cache, the program does what the model says and leaves
just that live. -/
abbrev Implements (nlSocket linkCache : Nat) {Result : Type} (program : NetlinkProgram Result)
    (spec : NetlinkManager → Result → NetlinkManager → Prop) : Prop :=
  ∀ others, Program.Refines (Guarded.alone Libnl.handle) (Libnl.Holds nlSocket linkCache others) program spec

theorem Implements.locked {body : NetlinkProgram Result}
    {spec : NetlinkManager → Result → NetlinkManager → Prop} (h : Implements nlSocket linkCache body spec) :
    Implements nlSocket linkCache (Guarded.locked body) spec :=
  fun others before manager response after hHolds hRun =>
    h others before manager response after hHolds (Guarded.runs_locked_iff.mp hRun)

theorem checkInterfaceExists_implements : Implements nlSocket linkCache
    (checkInterfaceExists nlSocket linkCache name) fun before response after =>
      ∃ fault, before.checkInterfaceExists name fault = (response, after) := by
  apply Implements.locked
  intro others s manager response t h hRun
  obtain ⟨refill, after, hAfter, hRest⟩ := runs_nlCacheRefill h hRun
  by_cases hOk : refill = .ok
  · subst hOk
    rcases runs_rtnlLinkGetByName hAfter hRest with ⟨hNone, hDone⟩ | ⟨link, p, held, hLink, hFree, hHeld, hPut⟩
    · obtain ⟨rfl, rfl⟩ := Program.runs_done_iff.mp hDone
      have hFound : manager.fresh.cached name = none := hNone
      exact ⟨_, ⟨.ok, by rw [NetlinkManager.checkInterfaceExists_ok, hFound]; rfl⟩, hAfter⟩
    · obtain ⟨last, hLast, hDone⟩ := runs_rtnlLinkPut hHeld (.inl ⟨link, Function.update_self ..⟩) hPut
      obtain ⟨rfl, rfl⟩ := Program.runs_done_iff.mp hDone
      have hFound : manager.fresh.cached name = some link := hLink
      rw [update_none hFree] at hLast
      exact ⟨_, ⟨.ok, by rw [NetlinkManager.checkInterfaceExists_ok, hFound]; rfl⟩, hLast⟩
  · rw [if_neg hOk] at hRest
    obtain ⟨rfl, rfl⟩ := Program.runs_done_iff.mp hRest
    exact ⟨_, ⟨refill, by rw [NetlinkManager.checkInterfaceExists, NetlinkManager.refill_of_ne hOk]⟩, hAfter⟩

theorem checkInterfaceIsUp_implements : Implements nlSocket linkCache
    (checkInterfaceIsUp nlSocket linkCache name) fun before response after =>
      ∃ fault, before.checkInterfaceIsUp name fault = (response, after) := by
  apply Implements.locked
  intro others s manager response t h hRun
  obtain ⟨refill, after, hAfter, hRest⟩ := runs_nlCacheRefill h hRun
  by_cases hOk : refill = .ok
  · subst hOk
    rcases runs_rtnlLinkGetByName hAfter hRest with ⟨hNone, hDone⟩ | ⟨link, p, held, hLink, hFree, hHeld, hFlags⟩
    · obtain ⟨rfl, rfl⟩ := Program.runs_done_iff.mp hDone
      exact ⟨_, ⟨.ok, NetlinkManager.checkInterfaceIsUp_of_not_cached hNone⟩, hAfter⟩
    · have hPut := runs_rtnlLinkGetFlags hHeld (Function.update_self ..) hFlags
      obtain ⟨last, hLast, hDone⟩ := runs_rtnlLinkPut hHeld (.inl ⟨link, Function.update_self ..⟩) hPut
      obtain ⟨rfl, rfl⟩ := Program.runs_done_iff.mp hDone
      rw [update_none hFree] at hLast
      exact ⟨_, ⟨.ok, NetlinkManager.checkInterfaceIsUp_of_cached hLink⟩, hLast⟩
  · rw [if_neg hOk] at hRest
    obtain ⟨rfl, rfl⟩ := Program.runs_done_iff.mp hRest
    exact ⟨_, ⟨refill, by rw [NetlinkManager.checkInterfaceIsUp, NetlinkManager.refill_of_ne hOk]⟩, hAfter⟩

/-- Both references of a function that changes a link are put. -/
theorem runs_putBoth {link change : Nat} {object : Link} {request : LinkRequest}
    {next : NetlinkProgram Result}
    (h : s.Holds nlSocket linkCache (Function.update (Function.update others link (some (.link object)))
      change (some (.request request))) manager)
    (hLink : others link = none)
    (hChange : Function.update others link (some (.link object)) change = none)
    (hRun : Runs (ask (.rtnlLinkPut change) fun _ => ask (.rtnlLinkPut link) fun _ => next) s result t) :
    ∃ after, after.Holds nlSocket linkCache others manager ∧ Runs next after result t := by
  obtain ⟨first, hFirst, hPutLink⟩ := runs_rtnlLinkPut h (.inr ⟨_, Function.update_self ..⟩) hRun
  rw [update_none hChange] at hFirst
  obtain ⟨second, hSecond, hRest⟩ := runs_rtnlLinkPut hFirst (.inl ⟨_, Function.update_self ..⟩) hPutLink
  rw [update_none hLink] at hSecond
  exact ⟨second, hSecond, hRest⟩

/-- The flag of a new request. -/
theorem runs_setFlags {up : Bool} {next : NetlinkProgram Result}
    (h : s.Holds nlSocket linkCache (Function.update others p (some (.request {}))) manager)
    (hRun : Runs (if up then ask (.rtnlLinkSetFlags p) fun _ => next
      else ask (.rtnlLinkUnsetFlags p) fun _ => next) s result t) :
    ∃ after, after.Holds nlSocket linkCache (Function.update others p (some (.request { flags := some up })))
      manager ∧ Runs next after result t := by
  cases up with
  | true =>
      obtain ⟨after, hAfter, hRest⟩ := runs_set h ({ · with flags := some true }) ()
        (Function.update_self ..) (fun _ _ => rfl) hRun
      rw [Function.update_idem] at hAfter
      exact ⟨after, hAfter, hRest⟩
  | false =>
      obtain ⟨after, hAfter, hRest⟩ := runs_set h ({ · with flags := some false }) ()
        (Function.update_self ..) (fun _ _ => rfl) hRun
      rw [Function.update_idem] at hAfter
      exact ⟨after, hAfter, hRest⟩

/-- What comes after a filled-in request for a state: the kernel's answer, and both
references put. -/
theorem runs_changeState {link change : Nat} {object : Link} {up : Bool} {response : NetlinkResponse}
    (h : s.Holds nlSocket linkCache (Function.update (Function.update others link (some (.link object)))
      change (some (.request { flags := some up }))) manager)
    (hLink : others link = none)
    (hChange : Function.update others link (some (.link object)) change = none)
    (hRun : Runs (changeState texts nlSocket linkCache link change) s response t) :
    ∃ refusal refillAfter after,
      manager.afterStateChange texts object up refusal refillAfter = (response, after) ∧
        t.Holds nlSocket linkCache others after := by
  have hNe : link ≠ change := by
    rintro rfl
    simp at hChange
  have hObject : Function.update (Function.update others link (some (.link object))) change
      (some (.request { flags := some up })) link = some (.link object) := by
    rw [Function.update_of_ne hNe, Function.update_self]
  obtain ⟨refusal, changed, hChanged, hPuts⟩ := runs_rtnlLinkChange h hObject (Function.update_self ..)
    rfl hRun
  obtain ⟨second, hSecond, hRest⟩ := runs_putBoth hChanged hLink hChange hPuts
  by_cases hNegative : (manager.kernel.rtnlLinkChange object (.state up) refusal).1 < 0
  · rw [if_pos hNegative] at hRest
    obtain ⟨rfl, rfl⟩ := Program.runs_done_iff.mp hRest
    exact ⟨refusal, .ok, _, if_pos hNegative, hSecond⟩
  · rw [if_neg hNegative] at hRest
    obtain ⟨refill, last, hLast, hDone⟩ := runs_nlCacheRefill hSecond hRest
    obtain ⟨rfl, rfl⟩ := Program.runs_done_iff.mp hDone
    exact ⟨refusal, refill, _, if_neg hNegative, hLast⟩

theorem setInterfaceStateLibnl_implements (up : Bool) : Implements nlSocket linkCache
    (setInterfaceStateLibnl texts nlSocket linkCache name up) fun before response after =>
      ∃ faults, before.setInterfaceStateLibnl texts name up faults = (response, after) := by
  apply Implements.locked
  intro others s manager response t h hRun
  obtain ⟨refill, after, hAfter, hRest⟩ := runs_nlCacheRefill h hRun
  by_cases hOk : refill = .ok
  · subst hOk
    rcases runs_rtnlLinkGetByName hAfter hRest with ⟨hNone, hDone⟩ | ⟨link, p, held, hLink, hFree, hHeld, hFlags⟩
    · obtain ⟨rfl, rfl⟩ := Program.runs_done_iff.mp hDone
      have hFound : manager.fresh.cached name = none := hNone
      refine ⟨_, ⟨⟨.ok, false, none, .ok⟩, ?_⟩, hAfter⟩
      rw [NetlinkManager.setInterfaceStateLibnl_ok, hFound]
      rfl
    · have hFound : manager.fresh.cached name = some link := hLink
      have hRest := runs_rtnlLinkGetFlags hHeld (Function.update_self ..) hFlags
      by_cases hUp : link.up = up
      · rw [if_pos hUp] at hRest
        obtain ⟨last, hLast, hDone⟩ := runs_rtnlLinkPut hHeld (.inl ⟨link, Function.update_self ..⟩) hRest
        obtain ⟨rfl, rfl⟩ := Program.runs_done_iff.mp hDone
        rw [update_none hFree] at hLast
        refine ⟨_, ⟨⟨.ok, false, none, .ok⟩, ?_⟩, hLast⟩
        rw [NetlinkManager.setInterfaceStateLibnl_ok, hFound]
        simp only [hUp, ↓reduceIte]
        rfl
      · rw [if_neg hUp] at hRest
        rcases runs_rtnlLinkAlloc hHeld hRest with hPut | ⟨q, asked, hNew, hAsked, hSet⟩
        · obtain ⟨last, hLast, hDone⟩ := runs_rtnlLinkPut hHeld (.inl ⟨link, Function.update_self ..⟩) hPut
          obtain ⟨rfl, rfl⟩ := Program.runs_done_iff.mp hDone
          rw [update_none hFree] at hLast
          refine ⟨_, ⟨⟨.ok, true, none, .ok⟩, ?_⟩, hLast⟩
          rw [NetlinkManager.setInterfaceStateLibnl_ok, hFound]
          simp only [hUp, ↓reduceIte]
          rfl
        · obtain ⟨filled, hFilled, hChange⟩ := runs_setFlags hAsked hSet
          obtain ⟨refusal, refillAfter, last, hDone, hLast⟩ := runs_changeState texts hFilled hFree hNew hChange
          refine ⟨last, ⟨⟨.ok, false, refusal, refillAfter⟩, ?_⟩, hLast⟩
          rw [NetlinkManager.setInterfaceStateLibnl_ok, hFound]
          simp only [hUp, Bool.false_eq_true, ↓reduceIte]
          exact hDone
  · rw [if_neg hOk] at hRest
    obtain ⟨rfl, rfl⟩ := Program.runs_done_iff.mp hRest
    refine ⟨_, ⟨⟨refill, false, none, .ok⟩, ?_⟩, hAfter⟩
    rw [NetlinkManager.setInterfaceStateLibnl]
    simp only
    rw [NetlinkManager.refill_of_ne hOk]

/-- What comes after the link is known to be a CAN link. -/
theorem runs_changeBitrate {link change : Nat} {object : Link} {bitrate : UInt32} {response : NetlinkResponse}
    (h : s.Holds nlSocket linkCache (Function.update (Function.update others link (some (.link object)))
      change (some (.request {}))) manager)
    (hLink : others link = none)
    (hChange : Function.update others link (some (.link object)) change = none)
    (hRun : Runs (changeBitrate texts nlSocket link change bitrate) s response t) :
    ∃ (typeFails : Bool) (refusal : Option Nat) (after : NetlinkManager),
      (if typeFails then (.ofMessage (-1) (ascii "Failed to set link type to 'can'"), manager)
        else manager.afterBitrateChange texts object bitrate refusal) = (response, after) ∧
        t.Holds nlSocket linkCache others after := by
  have hObject (content : Option NlObject) : Function.update (Function.update others link
      (some (.link object))) change content link = some (.link object) := by
    have hNe : link ≠ change := by
      rintro rfl
      simp at hChange
    rw [Function.update_of_ne hNe, Function.update_self]
  rcases runs_rtnlLinkSetType h (Function.update_self ..) hRun with ⟨failed, hFailed, hPuts⟩ | ⟨typed, hTyped, hRest⟩
  · obtain ⟨last, hLast, hDone⟩ := runs_putBoth hFailed hLink hChange hPuts
    obtain ⟨rfl, rfl⟩ := Program.runs_done_iff.mp hDone
    exact ⟨true, none, _, rfl, hLast⟩
  · rw [Function.update_idem] at hTyped
    obtain ⟨rated, hRated, hAsk⟩ := runs_set hTyped _ (0 : Int) (Function.update_self ..)
      (fun _ _ => rfl) hRest
    rw [Function.update_idem] at hRated
    obtain ⟨refusal, changed, hChanged, hPuts⟩ := runs_rtnlLinkChange hRated (hObject _)
      (Function.update_self ..) rfl hAsk
    obtain ⟨last, hLast, hDone⟩ := runs_putBoth hChanged hLink hChange hPuts
    refine ⟨false, refusal, ?_⟩
    by_cases hNegative : (manager.kernel.rtnlLinkChange object (.bitrate bitrate) refusal).1 < 0
    · rw [if_pos hNegative] at hDone
      obtain ⟨rfl, rfl⟩ := Program.runs_done_iff.mp hDone
      exact ⟨_, if_pos hNegative, hLast⟩
    · rw [if_neg hNegative] at hDone
      obtain ⟨rfl, rfl⟩ := Program.runs_done_iff.mp hDone
      exact ⟨_, if_neg hNegative, hLast⟩

theorem setCanBitrateLibnl_implements (bitrate : UInt32) : Implements nlSocket linkCache
    (setCanBitrateLibnl texts nlSocket linkCache name bitrate) fun before response after =>
      ∃ faults, before.setCanBitrateLibnl texts name bitrate faults = (response, after) := by
  apply Implements.locked
  intro others s manager response t h hRun
  by_cases hPrefix : (ascii "can").isPrefixOf name = true
  · rw [if_neg (not_not.mpr hPrefix)] at hRun
    rcases runs_rtnlLinkGetByName h hRun with ⟨hNone, hDone⟩ | ⟨link, p, held, hLink, hFree, hHeld, hRest⟩
    · obtain ⟨rfl, rfl⟩ := Program.runs_done_iff.mp hDone
      refine ⟨_, ⟨⟨false, false, none⟩, ?_⟩, h⟩
      rw [NetlinkManager.setCanBitrateLibnl_of_prefix texts manager hPrefix, hNone]
    · rcases runs_rtnlLinkAlloc hHeld hRest with hPut | ⟨q, asked, hNew, hAsked, hIs⟩
      · obtain ⟨last, hLast, hDone⟩ := runs_rtnlLinkPut hHeld (.inl ⟨link, Function.update_self ..⟩) hPut
        obtain ⟨rfl, rfl⟩ := Program.runs_done_iff.mp hDone
        rw [update_none hFree] at hLast
        refine ⟨_, ⟨⟨true, false, none⟩, ?_⟩, hLast⟩
        rw [NetlinkManager.setCanBitrateLibnl_of_prefix texts manager hPrefix, hLink]
        rfl
      · have hNe : p ≠ q := by
          rintro rfl
          simp at hNew
        have hObject : Function.update (Function.update others p (some (.link link))) q
            (some (.request {})) p = some (.link link) := by
          rw [Function.update_of_ne hNe, Function.update_self]
        have hKind := runs_rtnlLinkIsCan hAsked hObject hIs
        by_cases hCan : link.kind = .can
        · simp only [hCan, decide_true, ↓reduceIte] at hKind
          obtain ⟨typeFails, refusal, last, hDone, hLast⟩ := runs_changeBitrate texts hAsked hFree hNew hKind
          refine ⟨last, ⟨⟨false, typeFails, refusal⟩, ?_⟩, hLast⟩
          rw [NetlinkManager.setCanBitrateLibnl_of_prefix texts manager hPrefix, hLink]
          simp only [hCan, Bool.false_eq_true, ↓reduceIte]
          exact hDone
        · simp only [hCan, decide_false, Bool.false_eq_true, ↓reduceIte] at hKind
          obtain ⟨last, hLast, hDone⟩ := runs_putBoth hAsked hFree hNew hKind
          obtain ⟨rfl, rfl⟩ := Program.runs_done_iff.mp hDone
          refine ⟨_, ⟨⟨false, false, none⟩, ?_⟩, hLast⟩
          rw [NetlinkManager.setCanBitrateLibnl_of_prefix texts manager hPrefix, hLink]
          simp only [hCan, Bool.false_eq_true, ↓reduceIte]
  · rw [if_pos hPrefix] at hRun
    obtain ⟨rfl, rfl⟩ := Program.runs_done_iff.mp hRun
    exact ⟨_, ⟨⟨false, false, none⟩, if_pos hPrefix⟩, h⟩

/-- What comes after a new socket is connected and a request allocated. -/
theorem runs_addVcan {socket link : Nat} {response : Except (List UInt8) Unit}
    (h : s.Holds nlSocket linkCache (Function.update (Function.update others socket (some (.socket true)))
      link (some (.request {}))) manager)
    (hSocket : others socket = none) (hOwn : socket ≠ nlSocket)
    (hLink : Function.update others socket (some (.socket true)) link = none)
    (hRun : Runs (addVcan texts name socket link) s response t) :
    ∃ outcome after, manager.afterAdd texts name outcome = (response, after) ∧
      t.Holds nlSocket linkCache others after := by
  have hNe : socket ≠ link := by
    rintro rfl
    simp at hLink
  have hObject (content : Option NlObject) : Function.update (Function.update others socket
      (some (.socket true))) link content socket = some (.socket true) := by
    rw [Function.update_of_ne hNe, Function.update_self]
  obtain ⟨named, hNamed, hType⟩ := runs_set h ({ · with name := some name }) ()
    (Function.update_self ..) (fun _ _ => rfl) hRun
  rw [Function.update_idem] at hNamed
  -- with and without the type
  obtain ⟨kind, code, typed, hKind, hTyped, hAdd⟩ : ∃ (kind : Option LinkKind) (code : Int) (typed : Libnl),
      (kind = some .vcan ∨ kind = none) ∧ typed.Holds nlSocket linkCache (Function.update
        (Function.update others socket (some (.socket true))) link
          (some (.request { name := some name, kind }))) manager ∧ Runs _ typed response t := by
    rcases runs_rtnlLinkSetType hNamed (Function.update_self ..) hType with
      ⟨failed, hFailed, hRest⟩ | ⟨typed, hTyped, hRest⟩
    · exact ⟨none, -1, failed, .inr rfl, hFailed, hRest⟩
    · rw [Function.update_idem] at hTyped
      exact ⟨some .vcan, 0, typed, .inl rfl, hTyped, hRest⟩
  obtain ⟨outcome, added, hAdded, hPut⟩ := runs_rtnlLinkAdd hTyped (hObject _) (Function.update_self ..)
    hKind hAdd
  obtain ⟨put, hPutDone, hClose⟩ := runs_rtnlLinkPut hAdded (.inr ⟨_, Function.update_self ..⟩) hPut
  rw [update_none hLink] at hPutDone
  obtain ⟨closed, hClosed, hFree⟩ := runs_nlClose hPutDone (Function.update_self ..) hOwn hClose
  rw [Function.update_idem] at hClosed
  obtain ⟨last, hLast, hDone⟩ := runs_nlSocketFree hClosed (Function.update_self ..) hOwn hFree
  rw [update_none hSocket] at hLast
  refine ⟨outcome, { manager with kernel := (manager.kernel.rtnlLinkAdd name outcome).2 }, ?_⟩
  simp only [NetlinkManager.afterAdd]
  by_cases hNegative : (manager.kernel.rtnlLinkAdd name outcome).1 < 0
  · rw [if_pos hNegative] at hDone ⊢
    obtain ⟨rfl, rfl⟩ := Program.runs_done_iff.mp hDone
    exact ⟨rfl, hLast⟩
  · rw [if_neg hNegative] at hDone ⊢
    obtain ⟨rfl, rfl⟩ := Program.runs_done_iff.mp hDone
    exact ⟨rfl, hLast⟩

theorem createVcanInterfaceIfNotExists_implements : Implements nlSocket linkCache
    (createVcanInterfaceIfNotExists texts name) fun before response after =>
      ∃ faults : CreateFaults, faults.probe ≠ some noDevice ∧
        before.createVcan texts name faults = (response, after) := by
  intro others s manager response t h hRun
  rcases runs_ifNametoindex h hRun with ⟨errno, hNe, hDone⟩ | ⟨link, hLink, hDone⟩ | ⟨hNone, hRest⟩
  · simp only [hNe, ne_eq, not_false_eq_true, ↓reduceIte] at hDone
    obtain ⟨rfl, rfl⟩ := Program.runs_done_iff.mp hDone
    exact ⟨_, ⟨⟨some errno, false, false, false, .refused 0⟩, by simpa using hNe, rfl⟩, h⟩
  · obtain ⟨rfl, rfl⟩ := Program.runs_done_iff.mp hDone
    refine ⟨_, ⟨⟨none, false, false, false, .refused 0⟩, by simp, ?_⟩, h⟩
    simp [NetlinkManager.createVcan, NetlinkManager.createVcanInterfaceIfNotExists, hLink]
  · simp only [ne_eq, not_true_eq_false, ↓reduceIte] at hRest
    rcases runs_nlSocketAlloc h hRest with hDone | ⟨p, made, hFree, hOwn, hMade, hConnect⟩
    · obtain ⟨rfl, rfl⟩ := Program.runs_done_iff.mp hDone
      refine ⟨_, ⟨⟨none, true, false, false, .refused 0⟩, by simp, ?_⟩, h⟩
      simp [NetlinkManager.createVcan, NetlinkManager.createVcanInterfaceIfNotExists, hNone]
    · rcases runs_nlConnect hMade (Function.update_self ..) hOwn hConnect with hFailed | ⟨joined, hJoined, hAlloc⟩
      · obtain ⟨last, hLast, hDone⟩ := runs_nlSocketFree hMade (Function.update_self ..) hOwn hFailed
        rw [update_none hFree] at hLast
        obtain ⟨rfl, rfl⟩ := Program.runs_done_iff.mp hDone
        refine ⟨_, ⟨⟨none, false, true, false, .refused 0⟩, by simp, ?_⟩, hLast⟩
        simp [NetlinkManager.createVcan, NetlinkManager.createVcanInterfaceIfNotExists, hNone]
      · rw [Function.update_idem] at hJoined
        rcases runs_rtnlLinkAlloc hJoined hAlloc with hClose | ⟨q, asked, hNew, hAsked, hAdd⟩
        · obtain ⟨closed, hClosed, hLeft⟩ := runs_nlClose hJoined (Function.update_self ..) hOwn hClose
          rw [Function.update_idem] at hClosed
          obtain ⟨last, hLast, hDone⟩ := runs_nlSocketFree hClosed (Function.update_self ..) hOwn hLeft
          rw [update_none hFree] at hLast
          obtain ⟨rfl, rfl⟩ := Program.runs_done_iff.mp hDone
          refine ⟨_, ⟨⟨none, false, false, true, .refused 0⟩, by simp, ?_⟩, hLast⟩
          simp [NetlinkManager.createVcan, NetlinkManager.createVcanInterfaceIfNotExists, hNone]
        · obtain ⟨outcome, last, hDone, hLast⟩ := runs_addVcan texts hAsked hFree hOwn hNew hAdd
          refine ⟨last, ⟨⟨none, false, false, false, outcome⟩, by simp, ?_⟩, hLast⟩
          rw [NetlinkManager.createVcan_of_none texts hNone]
          exact hDone

variable (request : NetlinkRequest)

theorem setBitrateThenState_implements : Implements nlSocket linkCache
    (setBitrateThenState texts nlSocket linkCache name request) fun before response after =>
      ∃ bitrate final, ∀ faults : RequestFaults, faults.bitrate = bitrate → faults.final = final →
        before.setBitrateThenState texts request name faults = (response, after) := by
  intro others s manager response t h hRun
  obtain ⟨rated, between, hRate, hRest⟩ := Program.runs_bind_iff.mp hRun
  obtain ⟨middle, ⟨bitrate, hRated⟩, hMiddle⟩ := setCanBitrateLibnl_implements texts request.bitrate others
    s manager rated between h hRate
  by_cases hFailed : rated.result ≠ 0
  · rw [if_pos hFailed] at hRest
    obtain ⟨rfl, rfl⟩ := Program.runs_done_iff.mp hRest
    refine ⟨middle, ⟨bitrate, ⟨.ok, false, none, .ok⟩, ?_⟩, hMiddle⟩
    rintro faults rfl _
    simp only [NetlinkManager.setBitrateThenState, hRated, ne_eq, hFailed, not_false_eq_true, ↓reduceIte]
  · rw [if_neg hFailed] at hRest
    obtain ⟨last, ⟨final, hFinal⟩, hLast⟩ := setInterfaceStateLibnl_implements texts request.up others
      between middle response t hMiddle hRest
    refine ⟨last, ⟨bitrate, final, ?_⟩, hLast⟩
    rintro faults rfl rfl
    simp only [NetlinkManager.setBitrateThenState, hRated, hFailed, ↓reduceIte]
    exact hFinal

/-- A request for a bitrate, once the state of the link is known. -/
theorem lowerThenSet_implements (isUp : Bool) : Implements nlSocket linkCache
    (lowerThenSet texts nlSocket linkCache name request isUp) fun before response after =>
      ∃ down bitrate final, ∀ faults : RequestFaults, faults.down = down → faults.bitrate = bitrate →
        faults.final = final →
          let lowered := before.lowerBeforeBitrate texts name isUp faults.down
          (if lowered.1.result ≠ 0 then
            (.ofMessage lowered.1.result (ascii "Failed to bring down interface " ++ name ++
              ascii " before setting bitrate: " ++ lowered.1.errorText), lowered.2)
          else lowered.2.setBitrateThenState texts request name faults) = (response, after) := by
  intro others s manager response t h hRun
  cases isUp with
  | false =>
      obtain ⟨last, ⟨bitrate, final, hSet⟩, hLast⟩ := setBitrateThenState_implements texts request others
        s manager response t h hRun
      refine ⟨last, ⟨⟨.ok, false, none, .ok⟩, bitrate, final, ?_⟩, hLast⟩
      intro faults _ hBitrate hFinal
      exact hSet faults hBitrate hFinal
  | true =>
      obtain ⟨lowered, between, hLower, hRest⟩ := Program.runs_bind_iff.mp hRun
      obtain ⟨middle, ⟨down, hLowered⟩, hMiddle⟩ := setInterfaceStateLibnl_implements texts false others
        s manager lowered between h hLower
      have hStep : manager.lowerBeforeBitrate texts name true down = (lowered, middle) := hLowered
      by_cases hFailed : lowered.result ≠ 0
      · rw [if_pos hFailed] at hRest
        obtain ⟨rfl, rfl⟩ := Program.runs_done_iff.mp hRest
        refine ⟨middle, ⟨down, ⟨false, false, none⟩, ⟨.ok, false, none, .ok⟩, ?_⟩, hMiddle⟩
        rintro faults rfl _ _
        simp only [hStep, ne_eq, hFailed, not_false_eq_true, ↓reduceIte]
      · rw [if_neg hFailed] at hRest
        obtain ⟨last, ⟨bitrate, final, hSet⟩, hLast⟩ := setBitrateThenState_implements texts request others
          between middle response t hMiddle hRest
        refine ⟨last, ⟨down, bitrate, final, ?_⟩, hLast⟩
        rintro faults rfl hBitrate hFinal
        simp only [hStep, hFailed, ↓reduceIte]
        exact hSet faults hBitrate hFinal

theorem processSetInterfaceState_implements : Implements nlSocket linkCache
    (processSetInterfaceState texts nlSocket linkCache name request) fun before response after =>
      ∃ faults : RequestFaults, faults.create.probe ≠ some noDevice ∧
        before.processSetInterfaceState texts request name faults = (response, after) := by
  intro others s manager response t h hRun
  unfold processSetInterfaceState at hRun
  unfold NetlinkManager.processSetInterfaceState
  by_cases hBitrate : request.up = true ∧ request.setBitrate = true
  · rw [if_pos hBitrate] at hRun
    obtain ⟨checked, between, hCheck, hRest⟩ := Program.runs_bind_iff.mp hRun
    obtain ⟨middle, ⟨check, hChecked⟩, hMiddle⟩ := checkInterfaceIsUp_implements others
      s manager checked between h hCheck
    by_cases hFailed : checked.result ≠ 0
    · rw [if_pos hFailed] at hRest
      obtain ⟨rfl, rfl⟩ := Program.runs_done_iff.mp hRest
      refine ⟨middle, ⟨{ noFaults with check }, by simp [noFaults], ?_⟩, hMiddle⟩
      simp only [hBitrate, hChecked, ne_eq, hFailed, and_self, not_false_eq_true, ↓reduceIte]
    · rw [if_neg hFailed] at hRest
      obtain ⟨last, ⟨down, bitrate, final, hSet⟩, hLast⟩ := lowerThenSet_implements texts request checked.isUp
        others between middle response t hMiddle hRest
      refine ⟨last, ⟨{ noFaults with check, down, bitrate, final }, by simp [noFaults], ?_⟩, hLast⟩
      have hDone := hSet { noFaults with check, down, bitrate, final } rfl rfl rfl
      simp only [hBitrate, hChecked, hFailed, and_self, ↓reduceIte]
      exact hDone
  · rw [if_neg hBitrate] at hRun
    obtain ⟨last, ⟨final, hFinal⟩, hLast⟩ := setInterfaceStateLibnl_implements texts request.up others
      s manager response t h hRun
    refine ⟨last, ⟨{ noFaults with final }, by simp [noFaults], ?_⟩, hLast⟩
    rw [if_neg hBitrate]
    exact hFinal

/-- A request, with the memory behind it, that the model of whole functions answers so if
some of the calls fail. -/
abbrev Answers (before : NetlinkManager) (asked : NetlinkRequest × List UInt8) (response : NetlinkResponse)
    (after : NetlinkManager) : Prop :=
  ∃ faults : RequestFaults, faults.create.probe ≠ some noDevice ∧
    before.processRequest texts asked.1 asked.2 faults = (response, after)

/-- Every request, with whatever happens to its calls, is handled as the model of whole
functions says, and leaves no reference and no object behind. -/
theorem processRequest_implements (memory : List UInt8) : Implements nlSocket linkCache
    (processRequest texts nlSocket linkCache request memory) fun before response after =>
      Answers texts before (request, memory) response after := by
  apply Implements.locked
  intro others s manager response t h hRun
  unfold handleRequest at hRun
  unfold Answers NetlinkManager.processRequest
  cases hOperation : RequestType.ofByte request.operation with
  | none =>
      rw [hOperation] at hRun
      obtain ⟨rfl, rfl⟩ := Program.runs_done_iff.mp hRun
      exact ⟨_, ⟨noFaults, by simp [noFaults], rfl⟩, h⟩
  | some operation =>
      rw [hOperation] at hRun
      cases operation with
      | checkInterfaceState | validateCanHardware | clientRegister =>
          obtain ⟨rfl, rfl⟩ := Program.runs_done_iff.mp hRun
          exact ⟨_, ⟨noFaults, by simp [noFaults], rfl⟩, h⟩
      | interfaceExists =>
          obtain ⟨last, ⟨check, hChecked⟩, hLast⟩ := checkInterfaceExists_implements others s manager response t
            h hRun
          exact ⟨last, ⟨{ noFaults with check }, by simp [noFaults], hChecked⟩, hLast⟩
      | interfaceIsUp =>
          obtain ⟨last, ⟨check, hChecked⟩, hLast⟩ := checkInterfaceIsUp_implements others s manager response t
            h hRun
          exact ⟨last, ⟨{ noFaults with check }, by simp [noFaults], hChecked⟩, hLast⟩
      | setInterfaceState =>
          exact processSetInterfaceState_implements texts request others s manager response t h hRun
      | createVcanInterface =>
          obtain ⟨created, between, hCreate, hRest⟩ := Program.runs_bind_iff.mp hRun
          obtain ⟨middle, ⟨create, hProbe, hCreated⟩, hMiddle⟩ :=
            createVcanInterfaceIfNotExists_implements texts others s manager created between h hCreate
          obtain ⟨rfl, rfl⟩ := Prod.mk.inj hCreated
          generalize hMade : NetlinkManager.createVcanInterfaceIfNotExists texts manager.kernel
            (request.name memory) create = made at *
          obtain ⟨outcome, kernel⟩ := made
          cases outcome with
          | ok =>
              obtain ⟨rfl, rfl⟩ := Program.runs_done_iff.mp hRest
              exact ⟨_, ⟨{ noFaults with create }, hProbe, by simp only [hMade]⟩, hMiddle⟩
          | error message =>
              obtain ⟨rfl, rfl⟩ := Program.runs_done_iff.mp hRest
              exact ⟨_, ⟨{ noFaults with create }, hProbe, by simp only [hMade]⟩, hMiddle⟩

end Requests

end NetlinkProgram
end HyCAN
