import HyCAN.Client.Reachable

/-! A state change with and without the daemon. The daemon and the commands of the
fallback make their changes one by one, under the same rules of the kernel, and so
they can be compared from the same links. -/
namespace HyCAN

open NetlinkManager Transition

/-- The refusals that the changes of a request meet, each under the state that the
link has by then. -/
def KernelRules.faults (rules : KernelRules) (request : NetlinkRequest) : Option Link → RequestFaults
  | none => noFaults
  | some link =>
    let lowered := { link with up := false }
    let last :=
      if request.up ∧ request.setBitrate then
        if link.kind = .can then (LinkChange.bitrate request.bitrate).apply lowered else lowered
      else link
    { noFaults with
      down := ⟨.ok, false, rules.refusal link (.state false), .ok⟩
      bitrate := ⟨false, false, rules.refusal lowered (.bitrate request.bitrate)⟩
      final := ⟨.ok, false, rules.refusal last (.state request.up), .ok⟩ }

/-- What is left open of a call: the memory behind the received request, or the error
of `send_request` when the daemon is unavailable. -/
structure CallChoice where
  after : List UInt8
  error : Error

/-- The answers to `set_interface_state`, with or without the daemon. -/
def ruled (texts : ErrorTexts) (rules : KernelRules) (available : Bool) :
    Handler ClientCall.Answer NetlinkManager CallChoice
  | .makeClient, _, manager => (none, manager)
  | .sendRequest request, choice, manager =>
    if available then
      let handled := manager.processRequest texts request choice.after
        (rules.faults request (manager.kernel.byName (request.name choice.after)))
      (.ok handled.1, handled.2)
    else (.error choice.error, manager)
  | .system command, _, manager =>
    let done := IpCommand.run rules manager.kernel command
    (done.1, { manager with kernel := done.2 })
  | .interfaceIndex name, _, manager => (lookUpIndex manager.kernel name, manager)

namespace FallbackAgreement

variable (texts : ErrorTexts) (rules : KernelRules) {manager : NetlinkManager} {name : List UInt8}
  {link : Link}

/-- Whether it succeeds, and the links it leaves. -/
def outcome (available : Bool) (name : List UInt8) (up : Bool) (bitrate : UInt32)
    (choices : Nat → CallChoice) (manager : NetlinkManager) : Bool × LinkTable :=
  let done := (NetlinkClient.setInterfaceState (.ofString name) up bitrate).run
    (ruled texts rules available) choices manager
  (done.1.isOk, done.2.kernel)

/-- The fallback's last command. -/
def lastCommand (rules : KernelRules) (kernel : LinkTable) (name : List UInt8) (up : Bool) :
    Bool × LinkTable :=
  let done := IpCommand.run rules kernel (.state name up)
  (done.1 == 0, done.2)

/-- A bitrate first, and without it no last command. -/
def commands (rules : KernelRules) (kernel : LinkTable) (name : List UInt8) (up : Bool)
    (bitrate : UInt32) : Bool × LinkTable :=
  if up = true ∧ HasCanPrefix name then
    let rated := IpCommand.run rules kernel (.bitrate name bitrate)
    if rated.1 = 0 then lastCommand rules rated.2 name up else (false, rated.2)
  else lastCommand rules kernel name up

theorem run_fallbackState (up : Bool) (choices : Nat → CallChoice) (manager : NetlinkManager) :
    let done := (NetlinkClient.fallbackState (.ofString name) up).run (ruled texts rules false)
      choices manager
    (done.1.isOk, done.2.kernel) = lastCommand rules manager.kernel name up := by
  simp only [NetlinkClient.fallbackState, Program.run, ruled, lastCommand, StringView.ofString]
  by_cases hResult : (IpCommand.run rules manager.kernel (.state name up)).1 = 0
  · simp [hResult, Program.run, Except.isOk, Except.toBool]
  · simp [hResult, Program.run, Except.isOk, Except.toBool]

/-- Without the daemon, the outcome is that of the commands. -/
theorem outcome_unavailable (up : Bool) (bitrate : UInt32) (choices : Nat → CallChoice)
    (manager : NetlinkManager) :
    outcome texts rules false name up bitrate choices manager =
      commands rules manager.kernel name up bitrate := by
  have hCondition : (up && (StringView.ofString name).startsWith (ascii "can")) = true ↔
      up = true ∧ HasCanPrefix name := by
    rw [Bool.and_eq_true]
    exact Iff.rfl
  simp only [outcome, NetlinkClient.setInterfaceState, NetlinkClient.fallbackSystemCall, Program.run,
    ruled, commands, hCondition, Bool.false_eq_true, ↓reduceIte]
  by_cases hBitrate : up = true ∧ HasCanPrefix name
  · rw [if_pos hBitrate, if_pos hBitrate]
    simp only [Program.run, ruled]
    by_cases hRated : (IpCommand.run rules manager.kernel (.bitrate name bitrate)).1 = 0
    · have hText : (StringView.ofString name).text = name := rfl
      simp only [hText, hRated, ne_eq, not_true_eq_false, ↓reduceIte]
      exact run_fallbackState texts rules up _ _
    · have hText : (StringView.ofString name).text = name := rfl
      simp only [hText, hRated, ne_eq, not_false_eq_true, ↓reduceIte]
      rfl
  · rw [if_neg hBitrate, if_neg hBitrate]
    exact run_fallbackState texts rules up _ _

/-- With the daemon, it is that of the request. -/
theorem outcome_available (up : Bool) (bitrate : UInt32) (choices : Nat → CallChoice)
    (manager : NetlinkManager) :
    let request := NetlinkClient.stateRequest (.ofString name) up bitrate
    let done := manager.processRequest texts request (choices 0).after
      (rules.faults request (manager.kernel.byName (request.name (choices 0).after)))
    outcome texts rules true name up bitrate choices manager = (done.1.result == 0, done.2.kernel) := by
  intro request done
  simp only [outcome, NetlinkClient.setInterfaceState, Program.run, ruled, ↓reduceIte]
  have hDone : manager.processRequest texts (NetlinkClient.stateRequest (.ofString name) up bitrate)
      (choices 0).after (rules.faults (NetlinkClient.stateRequest (.ofString name) up bitrate)
        (manager.kernel.byName ((NetlinkClient.stateRequest (.ofString name) up bitrate).name
          (choices 0).after))) = done := rfl
  rw [hDone]
  by_cases hResult : done.1.result = 0
  · simp [hResult, Program.run, Except.isOk, Except.toBool]
  · simp [hResult, Program.run, Except.isOk, Except.toBool]

section Single

variable (hLink : manager.kernel.byName name = some link)
include hLink

theorem lastCommand_of_link (up : Bool) :
    lastCommand rules manager.kernel name up =
      match rules.refusal link (.state up) with
      | none => (true, manager.kernel.change link.index (.state up))
      | some _ => (false, manager.kernel) := by
  simp only [lastCommand, IpCommand.run, IpCommand.name, IpCommand.change, hLink, LinkChange.refusedOn]
  cases rules.refusal link (.state up) <;> rfl

/-- One change of the state, by the daemon or by the command. -/
theorem state_agrees {up : Bool} {refillAfter : Refill} {response : NetlinkResponse}
    {after : NetlinkManager}
    (h : StateOutcome manager name up ⟨.ok, false, rules.refusal link (.state up), refillAfter⟩
      response after) :
    (response.result == 0, after.kernel) = lastCommand rules manager.kernel name up := by
  rw [lastCommand_of_link rules hLink]
  by_cases hUp : link.up = up
  · have hNone : rules.refusal link (.state up) = none := by simp [KernelRules.refusal, hUp]
    rw [h.kernel_of_already hLink hUp, hNone, h.result_of_applies hLink ⟨rfl, rfl, hNone⟩,
      LinkTable.change_eq_self hLink (c := .state up) (with_up_eq_iff.mpr hUp.symm)]
    rfl
  · rcases h.applies_or hLink hUp with ⟨hApplies, hResult, hKernel⟩ | ⟨hNot, hResult, hKernel⟩
    · have hNone : rules.refusal link (.state up) = none := hApplies.2.2
      simp [hNone, hResult, hKernel]
    · cases hRefusal : rules.refusal link (.state up) with
      | none => exact absurd ⟨rfl, rfl, hRefusal⟩ hNot
      | some code => simp [hResult, hKernel]

/-- The bitrate of a link that is down, by the daemon or by the command. -/
theorem bitrate_agrees (hPrefix : HasCanPrefix name) (hDown : link.up = false) (rate : UInt32) :
    let rated := manager.fresh.setCanBitrateLibnl texts name rate
      ⟨false, false, rules.refusal link (.bitrate rate)⟩
    (rated.1.result == 0, rated.2.kernel) =
      ((IpCommand.run rules manager.kernel (.bitrate name rate)).1 == 0,
        (IpCommand.run rules manager.kernel (.bitrate name rate)).2) := by
  intro rated
  have hCached : manager.fresh.cached name = some link := hLink
  by_cases hKind : link.kind = .can
  · have hAccepted : (LinkChange.bitrate rate).refusedOn link = none := by
      simp [LinkChange.refusedOn, hKind, hDown]
    have hStart : (ascii "can").isPrefixOf name = true := hPrefix
    simp only [IpCommand.run, IpCommand.name, IpCommand.change, hLink, hAccepted]
    cases hRefusal : rules.refusal link (.bitrate rate) with
    | none =>
        have hRated := setCanBitrateLibnl_of_down texts hPrefix hLink hKind hDown rate
        rw [← hRefusal] at hRated
        simp only [rated, hRated]
        rfl
    | some code =>
        have hRated : rated.1.result ≠ 0 ∧ rated.2.kernel = manager.kernel := by
          have hNegative : (-((code : Int) + 1)) < 0 := by omega
          simp only [rated, setCanBitrateLibnl, hStart, hCached, hKind, hRefusal,
            LinkTable.rtnlLinkChange, hNegative, not_true_eq_false, Bool.false_eq_true, ↓reduceIte]
          exact ⟨hNegative.ne, rfl⟩
        simp [hRated]
  · have hOutcome : BitrateOutcome manager.fresh name rate rated.1 rated.2 :=
      bitrateOutcome texts (recent_fresh manager name) rate _
    have hFresh : manager.fresh.kernel.byName name = some link := hLink
    obtain ⟨hSame, hResult⟩ := hOutcome.of_not_can hFresh hKind
    have hFailed : rated.1.result ≠ 0 := fun hZero => hResult.mp hZero hPrefix
    simp [IpCommand.run, IpCommand.name, IpCommand.change, hLink, LinkChange.refusedOn, hKind, hFailed,
      hSame]
    rfl

theorem run_bitrate_ok {rate : UInt32} (hOk : (IpCommand.run rules manager.kernel (.bitrate name rate)).1 = 0) :
    link.kind = .can ∧ link.up = false ∧
      (IpCommand.run rules manager.kernel (.bitrate name rate)).2 =
        manager.kernel.change link.index (.bitrate rate) := by
  by_cases hKind : link.kind = .can
  · cases hUp : link.up with
    | true =>
        simp [IpCommand.run, IpCommand.name, IpCommand.change, hLink, LinkChange.refusedOn, hKind,
          hUp] at hOk
    | false =>
        refine ⟨hKind, rfl, ?_⟩
        cases hRefusal : rules.refusal link (.bitrate rate) with
        | none =>
            simp [IpCommand.run, IpCommand.name, IpCommand.change, hLink, LinkChange.refusedOn, hKind,
              hUp, hRefusal]
        | some code =>
            simp [IpCommand.run, IpCommand.name, IpCommand.change, hLink, LinkChange.refusedOn, hKind,
              hUp, hRefusal] at hOk
  · simp [IpCommand.run, IpCommand.name, IpCommand.change, hLink, LinkChange.refusedOn, hKind] at hOk

/-- A link that is down needs no preparation, and then both paths do the same. -/
theorem down_agrees {request : NetlinkRequest} (hPrefix : HasCanPrefix name) (hDown : link.up = false)
    (hBitrate : request.up = true ∧ request.setBitrate = true) :
    let done := manager.processSetInterfaceState texts request name (rules.faults request (some link))
    (done.1.result == 0, done.2.kernel) = commands rules manager.kernel name true request.bitrate := by
  intro done
  have hLowered : { link with up := false } = link := with_up_eq_iff.mpr hDown.symm
  have hDone : done = manager.fresh.setBitrateThenState texts request name
      (rules.faults request (some link)) :=
    processSetInterfaceState_of_down texts hBitrate rfl hLink hDown
  have hFault : (rules.faults request (some link)).bitrate =
      ⟨false, false, rules.refusal link (.bitrate request.bitrate)⟩ := by
    simp only [KernelRules.faults, hLowered]
  obtain ⟨hResult, hKernel⟩ := Prod.mk.inj
    (bitrate_agrees texts rules hLink hPrefix hDown request.bitrate)
  rw [← hFault] at hResult hKernel
  rw [commands, if_pos ⟨rfl, hPrefix⟩, hDone, setBitrateThenState]
  by_cases hOk : (IpCommand.run rules manager.kernel (.bitrate name request.bitrate)).1 = 0
  · obtain ⟨hKind, _, hChanged⟩ := run_bitrate_ok rules hLink hOk
    have hZero : (manager.fresh.setCanBitrateLibnl texts name request.bitrate
        (rules.faults request (some link)).bitrate).1.result = 0 := by
      simpa [hOk] using hResult
    have hLast : (rules.faults request (some link)).final =
        ⟨.ok, false, rules.refusal ((LinkChange.bitrate request.bitrate).apply link) (.state true), .ok⟩ := by
      simp only [KernelRules.faults, hLowered, if_pos hKind, hBitrate.1, hBitrate.2, and_self,
        ↓reduceIte]
    have hRatedLink : (manager.fresh.setCanBitrateLibnl texts name request.bitrate
        (rules.faults request (some link)).bitrate).2.kernel.byName name =
          some ((LinkChange.bitrate request.bitrate).apply link) := by
      rw [hKernel, hChanged]
      exact LinkTable.byName_change_self hLink
    simp only [hZero, hOk, hBitrate.1, ne_eq, not_true_eq_false, ↓reduceIte]
    rw [hLast, state_agrees rules hRatedLink (stateOutcome texts true _), hKernel]
  · have hFailed : (manager.fresh.setCanBitrateLibnl texts name request.bitrate
        (rules.faults request (some link)).bitrate).1.result ≠ 0 := by
      simpa [hOk] using hResult
    simp only [hFailed, hOk, hKernel, ne_eq, not_false_eq_true, ↓reduceIte]
    simp [hFailed]

/-- The fallback never takes down a link that is up, so it has no bitrate set. -/
theorem commands_of_up (hPrefix : HasCanPrefix name) (hUp : link.up = true) (bitrate : UInt32) :
    commands rules manager.kernel name true bitrate = (false, manager.kernel) := by
  have hRefused : (LinkChange.bitrate bitrate).refusedOn link ≠ none := by
    by_cases hKind : link.kind = .can <;> simp [LinkChange.refusedOn, hKind, hUp]
  obtain ⟨code, hCode⟩ := Option.ne_none_iff_exists'.mp hRefused
  have hRun : IpCommand.run rules manager.kernel (.bitrate name bitrate) = (512, manager.kernel) := by
    simp [IpCommand.run, IpCommand.name, IpCommand.change, hLink, hCode]
  rw [commands, if_pos ⟨rfl, hPrefix⟩, hRun]
  rfl

/-- The daemon does, and whatever comes of it is not what the fallback leaves, unless
the kernel refuses. -/
theorem up_agrees_iff {request : NetlinkRequest} (hUp : link.up = true)
    (hBitrate : request.up = true ∧ request.setBitrate = true) :
    let done := manager.processSetInterfaceState texts request name (rules.faults request (some link))
    (done.1.result == 0, done.2.kernel) = (false, manager.kernel) ↔
      rules link (.state false) ≠ none := by
  intro done
  have hSet : SetOutcome manager request name (rules.faults request (some link)) done.1 done.2 :=
    setOutcome texts request _
  have hRefusal : (rules.faults request (some link)).down.refusal = rules link (.state false) := by
    simp [KernelRules.faults, KernelRules.refusal, hUp]
  constructor
  · intro hSame hAccepted
    obtain ⟨hResult, hKernel⟩ := Prod.mk.inj hSame
    obtain ⟨left, hLeft, hLow⟩ := hSet.low_of_failed hBitrate rfl hLink hUp
      ⟨rfl, rfl, hRefusal.trans hAccepted⟩ (by simpa using hResult)
    rw [hKernel, hLink, Option.some.injEq] at hLeft
    rw [← hLeft, hUp] at hLow
    exact absurd hLow (by decide)
  · intro hRefused
    have hNot : ¬(rules.faults request (some link)).down.Applies :=
      fun hApplies => hRefused (hRefusal ▸ hApplies.2.2)
    obtain ⟨hFailed, hKernel⟩ := hSet.kept_of_refused hBitrate rfl hLink hUp hNot
    simp [hFailed, hKernel]

end Single

/-- When the daemon takes a link down for its bitrate: the link is up, by its name it is
a CAN link, and the kernel lets it go down. -/
def Lowers (rules : KernelRules) (kernel : LinkTable) (name : List UInt8) (up : Bool) : Prop :=
  up = true ∧ HasCanPrefix name ∧
    ∃ link, kernel.byName name = some link ∧ link.up = true ∧ rules link (.state false) = none

/-- Whatever fails on a link that does not exist, nothing changes. -/
theorem absent_agrees {request : NetlinkRequest} {faults : RequestFaults}
    (hNone : manager.kernel.byName name = none) (bitrate : UInt32) :
    let done := manager.processSetInterfaceState texts request name faults
    (done.1.result == 0, done.2.kernel) =
      commands rules manager.kernel name request.up bitrate := by
  intro done
  have hSet : SetOutcome manager request name faults done.1 done.2 := setOutcome texts request faults
  have hKernel : done.2.kernel = manager.kernel := hSet.changedAt.eq_of_none hNone
  have hFailed : done.1.result ≠ 0 := by
    intro hResult
    obtain ⟨link, hLink, _⟩ := hSet.success hResult
    simp [hKernel, hNone] at hLink
  have hRun (command : IpCommand) (hName : command.name = name) :
      IpCommand.run rules manager.kernel command = (256, manager.kernel) := by
    simp only [IpCommand.run, hName, hNone]
  have hLast : lastCommand rules manager.kernel name request.up = (false, manager.kernel) := by
    rw [lastCommand, hRun _ rfl]
    rfl
  rw [commands, hRun _ rfl, hLast, hKernel]
  simp [hFailed]

/-- From the same links, the daemon and the fallback succeed or fail alike and leave the
same links, exactly if the daemon has no link to take down first. -/
theorem paths_agree_iff (hText : 0 ∉ name) (hLength : name.length < ifNameSize) (up : Bool)
    (bitrate : UInt32) (choices others : Nat → CallChoice) (manager : NetlinkManager) :
    outcome texts rules true name up bitrate choices manager =
        outcome texts rules false name up bitrate others manager ↔
      ¬Lowers rules manager.kernel name up := by
  have hView : (CString.read (StringView.ofString name).data).take (ifNameSize - 1) = name :=
    StringView.take_read_ofString hText hLength
  have hBitrate : (NetlinkClient.stateRequest (.ofString name) up bitrate).setBitrate = true ↔
      HasCanPrefix name ∧ up = true := NetlinkClient.setBitrate_stateRequest
  rw [outcome_unavailable, outcome_available, processRequest_stateRequest texts manager hView,
    NetlinkClient.name_stateRequest, hView]
  generalize hRequest : NetlinkClient.stateRequest (.ofString name) up bitrate = request at hBitrate ⊢
  have hUp : request.up = up := hRequest ▸ rfl
  have hRate : request.bitrate = bitrate := hRequest ▸ rfl
  subst hUp hRate
  cases hLink : manager.kernel.byName name with
  | none =>
      refine iff_of_true (absent_agrees texts rules hLink request.bitrate) ?_
      rintro ⟨_, _, link, hSome, _⟩
      simp [hLink] at hSome
  | some link =>
      by_cases hRated : HasCanPrefix name ∧ request.up = true
      · obtain ⟨hPrefix, hUp⟩ := hRated
        have hBoth : request.up = true ∧ request.setBitrate = true :=
          ⟨hUp, hBitrate.mpr ⟨hPrefix, hUp⟩⟩
        cases hLinkUp : link.up with
        | false =>
            rw [hUp]
            refine iff_of_true (down_agrees texts rules hLink hPrefix hLinkUp hBoth) ?_
            rintro ⟨_, _, found, hFound, hFoundUp, _⟩
            rw [hLink, Option.some.injEq] at hFound
            simp [← hFound, hLinkUp] at hFoundUp
        | true =>
            rw [hUp, commands_of_up rules hLink hPrefix hLinkUp]
            refine (up_agrees_iff texts rules hLink hLinkUp hBoth).trans ?_
            simp [Lowers, hPrefix, hLink, hLinkUp]
      · have hPlain : ¬(request.up = true ∧ request.setBitrate = true) :=
          fun hBoth => hRated (hBitrate.mp hBoth.2)
        have hLast : commands rules manager.kernel name request.up request.bitrate =
            lastCommand rules manager.kernel name request.up :=
          if_neg fun hBoth => hRated hBoth.symm
        have hFinal : (rules.faults request (some link)).final =
            ⟨.ok, false, rules.refusal link (.state request.up), .ok⟩ := by
          simp only [KernelRules.faults, if_neg hPlain]
        rw [hLast, processSetInterfaceState, if_neg hPlain, hFinal]
        refine iff_of_true (state_agrees rules hLink (stateOutcome texts request.up _)) ?_
        exact fun hLowers => hRated ⟨hLowers.2.1, hLowers.1⟩

/-- The error of `send_request` without a daemon. -/
def noDaemon : CallChoice :=
  ⟨[], ⟨.netlinkBringUpError, ascii "Failed to connect to daemon client channel"⟩⟩

/-- A CAN link that is up already. -/
def upCan0 : NetlinkManager where
  kernel := .single ⟨1, ascii "can0", .can, true, 500000⟩ (by decide +kernel)
  linkCache := []

theorem paths_agree_down :
    outcome ⟨fun _ => [], fun _ => []⟩ (fun _ _ => none) true (ascii "can0") false 1000000
        (fun _ => noDaemon) upCan0 =
      outcome ⟨fun _ => [], fun _ => []⟩ (fun _ _ => none) false (ascii "can0") false 1000000
        (fun _ => noDaemon) upCan0 ↔
      ¬Lowers (fun _ _ => none) upCan0.kernel (ascii "can0") false :=
  paths_agree_iff _ _ (by decide +kernel) (by decide +kernel) false 1000000 _ _ upCan0

/-- Bringing it up with another bitrate succeeds with the daemon and fails without. -/
theorem fallback_fails_on_up_link :
    ¬∀ (texts : ErrorTexts) (rules : KernelRules) (name : List UInt8) (up : Bool) (bitrate : UInt32)
        (choices others : Nat → CallChoice) (manager : NetlinkManager), PlainName name →
      outcome texts rules true name up bitrate choices manager =
        outcome texts rules false name up bitrate others manager := by
  intro hClaim
  have hSame := hClaim ⟨fun _ => [], fun _ => []⟩ (fun _ _ => none) (ascii "can0") true 1000000
    (fun _ => noDaemon) (fun _ => noDaemon) upCan0 (by decide +kernel)
  have hAvailable : (outcome ⟨fun _ => [], fun _ => []⟩ (fun _ _ => none) true (ascii "can0") true
      1000000 (fun _ => noDaemon) upCan0).1 = true := by decide +kernel
  have hUnavailable : (outcome ⟨fun _ => [], fun _ => []⟩ (fun _ _ => none) false (ascii "can0") true
      1000000 (fun _ => noDaemon) upCan0).1 = false := by decide +kernel
  rw [hSame, hUnavailable] at hAvailable
  exact absurd hAvailable (by decide)

end FallbackAgreement
end HyCAN
