import HyCAN.Client.ApiCall

/-! When two names are kept apart: a run in which nothing fails reaches any link that
both of them can lead to. -/
namespace HyCAN

open NetlinkManager Transition

namespace ApiCall

variable (texts : ErrorTexts) {call : ApiCall} {name first second : StringView} {other : List UInt8}

section Smooth

/-- A call on which nothing fails. -/
def answered (outcome : AddOutcome) : CallFaults :=
  ⟨none, .answered, { noFaults with create := ⟨none, false, false, false, outcome⟩ }, [],
    fun _ _ => none, false⟩

/-- One without a daemon. -/
def cutOff : CallFaults :=
  ⟨none, .unsent ⟨.netlinkBringUpError, ascii "Failed to connect to daemon client channel"⟩, noFaults,
    [], fun _ _ => none, false⟩

variable {observed : Observed} {link : Link} (outcome : AddOutcome)

/-- Nothing that has been touched is forgotten. -/
theorem touched_run_of_mem {Value : Type} (program : ClientProgram Value) (faults : Nat → CallFaults)
    (h : other ∈ observed.touched) :
    other ∈ (program.run (observing texts) faults observed).2.touched := by
  refine program.uses_any.run (observing texts) (P := fun observed => other ∈ observed.touched) ?_
    faults h
  intro asked fault observed _ hObserved
  have hTouch (name : List UInt8) (manager : NetlinkManager) :
      other ∈ (observed.touch name manager).touched := mem_touch_iff.mpr (.inl hObserved)
  cases asked with
  | makeClient => exact hObserved
  | sendRequest request =>
      simp only [observing]
      cases fault.transport with
      | answered | lost error => exact hTouch _ _
      | unsent error => exact hObserved
  | system command => exact hTouch _ _
  | interfaceIndex name => exact hTouch _ _

theorem touch_of_byName {manager : NetlinkManager}
    (hLink : observed.manager.kernel.byName other = some link) :
    other ∈ (observed.touch other manager).touched :=
  mem_touch_iff.mpr (.inr (.inl ⟨rfl, by simp [hLink]⟩))

theorem observing_answered {request : NetlinkRequest} {response : NetlinkResponse}
    {after : NetlinkManager}
    (hHandled : observed.manager.processRequest texts request [] (answered outcome).request =
      (response, after)) :
    observing texts (.sendRequest request) (answered outcome) observed =
      (.ok response, observed.touch (request.lookedUp []) after) := by
  have hAnswer : observing texts (.sendRequest request) (answered outcome) observed =
      (.ok (observed.manager.processRequest texts request [] (answered outcome).request).1,
        observed.touch (request.lookedUp [])
          (observed.manager.processRequest texts request [] (answered outcome).request).2) := rfl
  rw [hAnswer, hHandled]

/-- A request that the daemon answers without error. -/
theorem run_query {Value : Type} {operation : RequestType} {failure : List UInt8}
    {value : NetlinkResponse → Value} {response : NetlinkResponse} {after : NetlinkManager}
    (hHandled : observed.manager.processRequest texts (.ofQuery operation name.data) []
      (answered outcome).request = (response, after)) (hResult : response.result = 0) :
    (IPCManager.ensureInitialized
      (NetlinkClient.requestOnly (.ofQuery operation name.data) failure value)).run (observing texts)
        (fun _ => answered outcome) observed =
      (.ok (value response), observed.touch (queried operation name) after) := by
  have hAnswer := observing_answered texts outcome hHandled
  have hMade : observing texts .makeClient (answered outcome) observed = (none, observed) := rfl
  simp only [IPCManager.ensureInitialized, NetlinkClient.requestOnly, Program.run, hMade, hAnswer,
    hResult, lookedUp_ofQuery]
  rfl

theorem run_linkExists (name : StringView) (observed : Observed) :
    (IPCManager.linkExists name).run (observing texts) (fun _ => answered outcome) observed =
      (.ok (observed.manager.kernel.byName (field name)).isSome,
        observed.touch (field name) observed.manager.fresh) := by
  have hField : (NetlinkRequest.ofQuery .interfaceExists name.data).name [] = field name :=
    NetlinkRequest.name_ofQuery .interfaceExists name.data []
  have hHandled : observed.manager.processRequest texts (.ofQuery .interfaceExists name.data) []
      (answered outcome).request =
        (.ofQuery 0 (observed.manager.kernel.byName (field name)).isSome false, observed.manager.fresh) := by
    rw [← hField]
    rfl
  exact run_query texts outcome hHandled rfl

theorem run_isUp (hLink : observed.manager.kernel.byName (field name) = some link) :
    (IPCManager.isUp name).run (observing texts) (fun _ => answered outcome) observed =
      (.ok link.up, observed.touch (field name) observed.manager.fresh) := by
  have hField : (NetlinkRequest.ofQuery .interfaceIsUp name.data).name [] = field name :=
    NetlinkRequest.name_ofQuery .interfaceIsUp name.data []
  have hHandled : observed.manager.processRequest texts (.ofQuery .interfaceIsUp name.data) []
      (answered outcome).request = (.ofQuery 0 true link.up, observed.manager.fresh) := by
    show observed.manager.checkInterfaceIsUp
      ((NetlinkRequest.ofQuery .interfaceIsUp name.data).name []) .ok = _
    rw [hField, checkInterfaceIsUp_ok, hLink]
  exact run_query texts outcome hHandled rfl

/-- A link of the name is there already, or is created under a name that is free. -/
theorem run_createVcan (name : StringView) (observed : Observed) {kernel : LinkTable}
    (hCreate : createVcanInterfaceIfNotExists texts observed.manager.kernel (field name)
      (answered outcome).request.create = (.ok (), kernel)) :
    (IPCManager.createVcan name).run (observing texts) (fun _ => answered outcome) observed =
      (.ok (), observed.touch (ioctlName (field name)) { observed.manager with kernel }) := by
  have hField : (NetlinkRequest.ofQuery .createVcanInterface name.data).name [] = field name :=
    NetlinkRequest.name_ofQuery .createVcanInterface name.data []
  have hOperation : RequestType.ofByte
      (NetlinkRequest.ofQuery .createVcanInterface name.data).operation = some .createVcanInterface :=
    RequestType.ofByte_toByte .createVcanInterface
  have hHandled : observed.manager.processRequest texts (.ofQuery .createVcanInterface name.data) []
      (answered outcome).request = (.ofMessage 0 (ascii "VCAN interface created successfully"),
        { observed.manager with kernel }) := by
    simp only [processRequest, hOperation, hField, hCreate]
  exact run_query texts outcome hHandled rfl

/-- A state change that the daemon makes. -/
theorem run_set_answered {up : Bool} {bitrate : UInt32} {response : NetlinkResponse}
    {after : NetlinkManager}
    (hHandled : observed.manager.processRequest texts (NetlinkClient.stateRequest name up bitrate) []
      (answered outcome).request = (response, after)) (hResult : response.result = 0) :
    (IPCManager.set name up bitrate).run (observing texts) (fun _ => answered outcome) observed =
      (.ok (), observed.touch (field name) after) := by
  have hField := lookedUp_stateRequest name up bitrate []
  have hAnswer := observing_answered texts outcome hHandled
  have hMade : observing texts .makeClient (answered outcome) observed = (none, observed) := rfl
  simp only [IPCManager.set, IPCManager.ensureInitialized, NetlinkClient.setInterfaceState, Program.run,
    hMade, hAnswer, hResult, hField]
  rfl

theorem run_set_of_can (observed : Observed) (up : Bool) (bitrate : UInt32)
    (hLink : observed.manager.kernel.byName (field name) = some link) (hKind : link.kind = .can)
    (hDown : link.up = false) :
    ∃ after : NetlinkManager, (after.kernel.byName (field name)).isSome = true ∧
      (IPCManager.set name up bitrate).run (observing texts) (fun _ => answered outcome) observed =
        (.ok (), observed.touch (field name) after) := by
  have hBranch : observed.manager.processRequest texts (NetlinkClient.stateRequest name up bitrate) []
      (answered outcome).request = observed.manager.processSetInterfaceState texts
        (NetlinkClient.stateRequest name up bitrate) (field name) (answered outcome).request :=
    processRequest_stateRequest texts observed.manager rfl up bitrate [] (answered outcome).request
  have hResult : (observed.manager.processSetInterfaceState texts
      (NetlinkClient.stateRequest name up bitrate) (field name) (answered outcome).request).1.result = 0 :=
    processSetInterfaceState_succeeds texts _ _ hLink hKind hDown
  have hSet : SetOutcome observed.manager (NetlinkClient.stateRequest name up bitrate) (field name)
      (answered outcome).request _ _ := setOutcome texts _ _
  obtain ⟨left, hLeft, _⟩ := hSet.success hResult
  generalize observed.manager.processSetInterfaceState texts (NetlinkClient.stateRequest name up bitrate)
    (field name) (answered outcome).request = done at hBranch hResult hLeft
  exact ⟨done.2, by rw [hLeft]; rfl, run_set_answered texts outcome hBranch hResult⟩

/-- Without the daemon, the commands change the link by the whole name. -/
theorem run_fallback_cutOff (observed : Observed) (up : Bool) (bitrate : UInt32)
    (hLink : observed.manager.kernel.byName name.text = some link) (hKind : link.kind = .can)
    (hDown : link.up = false) :
    ((NetlinkClient.fallbackSystemCall name up bitrate).run (observing texts) (fun _ => cutOff)
        observed).1.isOk = true ∧
      name.text ∈ ((NetlinkClient.fallbackSystemCall name up bitrate).run (observing texts)
        (fun _ => cutOff) observed).2.touched := by
  have hLast (observed : Observed) (link : Link)
      (hLink : observed.manager.kernel.byName name.text = some link) (hKind : link.kind = .can)
      (hDown : link.up = false) :
      ((NetlinkClient.fallbackState name up).run (observing texts) (fun _ => cutOff)
          observed).1.isOk = true ∧
        name.text ∈ ((NetlinkClient.fallbackState name up).run (observing texts)
          (fun _ => cutOff) observed).2.touched := by
    have hRun : IpCommand.run (fun _ _ => none) observed.manager.kernel (.state name.text up) = _ :=
      IpCommand.run_of_down hLink hKind hDown
    simp only [NetlinkClient.fallbackState, Program.run, observing, cutOff, hRun]
    exact ⟨rfl, touch_of_byName hLink⟩
  unfold NetlinkClient.fallbackSystemCall
  split_ifs
  · have hRun : IpCommand.run (fun _ _ => none) observed.manager.kernel (.bitrate name.text bitrate) = _ :=
      IpCommand.run_of_down hLink hKind hDown
    simp only [Program.run, observing, cutOff, hRun]
    exact hLast _ _ (LinkTable.byName_change_self hLink) hKind hDown
  · exact hLast observed link hLink hKind hDown

theorem run_connect {text : List UInt8}
    (hLink : observed.manager.kernel.byName (field (.ofString text)) = some link) :
    (Interface.connect text).run (observing texts) (fun _ => answered outcome) observed =
      (.ok (), observed.touch (field (.ofString text)) observed.manager) := by
  have hPlain := ioctlName_of_byName hLink
  have hAnswer : observing texts (.interfaceIndex (Interface.ifrName text)) (answered outcome) observed =
      (.ok link.index, observed.touch (field (.ofString text)) observed.manager) := by
    rw [ifrName_eq text]
    show (lookUpIndex observed.manager.kernel (field (.ofString text)),
      observed.touch (ioctlName (field (.ofString text))) observed.manager) = _
    rw [lookUpIndex, hPlain, hLink]
  simp only [Interface.connect, Program.run, hAnswer]

/-- A program that is bound goes on after its own run, on the same answers. -/
theorem run_bind_answered {Value Other : Type} (program : ClientProgram Value)
    (rest : Value → ClientProgram Other) (faults : CallFaults) (observed : Observed) :
    (program.bind rest).run (observing texts) (fun _ => faults) observed =
      (rest (program.run (observing texts) (fun _ => faults) observed).1).run (observing texts)
        (fun _ => faults) (program.run (observing texts) (fun _ => faults) observed).2 := by
  obtain ⟨used, hRest⟩ := Program.run_bind Other (observing texts) program (fun _ => faults) observed
  exact hRest rest

/-- A kernel whose only link is a CAN link of the name. -/
def held (other : List UInt8) (hValid : ValidLinkName other) : NetlinkManager where
  kernel := .single ⟨1, other, .can, false, 0⟩ hValid
  linkCache := []

theorem byName_held (hValid : ValidLinkName other) :
    (held other hValid).kernel.byName other = some ⟨1, other, .can, false, 0⟩ := by
  simp [held, LinkTable.single, LinkTable.byName]

/-- A creation succeeds where there is a link of the name up to a colon. -/
theorem run_createVcan_held (name : StringView) (observed : Observed)
    (hLink : observed.manager.kernel.byName (ioctlName (field name)) = some link) :
    (IPCManager.createVcan name).run (observing texts) (fun _ => answered (.refused 0)) observed =
      (.ok (), observed.touch (ioctlName (field name)) observed.manager) := by
  apply run_createVcan
  simp only [createVcanInterfaceIfNotExists, answered, hLink, Option.isSome_some, ↓reduceIte]

/-- Without the daemon, a state is set by the whole name. -/
theorem exists_run_set_cutOff (hValid : ValidLinkName name.text) (up : Bool) (bitrate : UInt32) :
    ∃ faults, ((set up bitrate).run texts name faults (held name.text hValid)).1.isOk = true ∧
      name.text ∈ ((set up bitrate).run texts name faults (held name.text hValid)).2.touched :=
  ⟨fun _ => cutOff,
    run_fallback_cutOff texts ⟨held _ hValid, []⟩ up bitrate (byName_held hValid) rfl rfl⟩

/-- The names of the links on which an operation can succeed. -/
def Finds : ApiCall → StringView → List UInt8 → Prop
  | .set _ _, name, other => other = field name ∨ other = name.text
  | call, name, other => other = call.lookedUp name

/-- On such a link every operation succeeds, if nothing fails. -/
theorem exists_run_held (call : ApiCall) (hValid : ValidLinkName other) (hFinds : call.Finds name other) :
    ∃ faults, (call.run texts name faults (held other hValid)).1.isOk = true ∧
      other ∈ (call.run texts name faults (held other hValid)).2.touched := by
  have hHeld := byName_held hValid
  cases call with
  | linkExists =>
      obtain rfl : other = field name := hFinds
      refine ⟨fun _ => answered (.refused 0), ?_⟩
      rw [run, program, run_linkExists]
      exact ⟨rfl, touch_of_byName hHeld⟩
  | isUp =>
      obtain rfl : other = field name := hFinds
      refine ⟨fun _ => answered (.refused 0), ?_⟩
      rw [run, program, run_isUp texts (.refused 0) hHeld]
      exact ⟨rfl, touch_of_byName hHeld⟩
  | createVcan =>
      obtain rfl : other = ioctlName (field name) := hFinds
      refine ⟨fun _ => answered (.refused 0), ?_⟩
      rw [run, program, run_createVcan_held texts name ⟨held _ hValid, []⟩ hHeld]
      exact ⟨rfl, touch_of_byName hHeld⟩
  | set up bitrate =>
      obtain rfl | rfl := hFinds
      · refine ⟨fun _ => answered (.refused 0), ?_⟩
        obtain ⟨after, _, hRun⟩ := run_set_of_can texts (.refused 0) ⟨held _ hValid, []⟩ up bitrate
          hHeld rfl rfl
        rw [run, program, hRun]
        exact ⟨rfl, touch_of_byName hHeld⟩
      · exact exists_run_set_cutOff texts hValid up bitrate
  | down =>
      obtain rfl : other = field (.ofString name.text) := hFinds
      refine ⟨fun _ => answered (.refused 0), ?_⟩
      obtain ⟨after, _, hRun⟩ := run_set_of_can texts (.refused 0) ⟨held _ hValid, []⟩ false
        IPCManager.defaultBitrate hHeld rfl rfl
      rw [run, program, Interface.down, hRun]
      exact ⟨rfl, touch_of_byName hHeld⟩
  | up type bitrate =>
      obtain rfl : other = field (.ofString name.text) := hFinds
      refine ⟨fun _ => answered (.refused 0), ?_⟩
      have hEnsure : (Interface.ensureLink type name.text).run (observing texts)
          (fun _ => answered (.refused 0)) ⟨held _ hValid, []⟩ =
            (.ok (), Observed.touch ⟨held _ hValid, []⟩ (field (.ofString name.text))
              (held _ hValid).fresh) := by
        unfold Interface.ensureLink
        rw [run_bind_answered, run_linkExists, hHeld]
        rfl
      obtain ⟨after, hAfter, hSet⟩ := run_set_of_can texts (.refused 0)
        (Observed.touch ⟨held _ hValid, []⟩ (field (.ofString name.text)) (held _ hValid).fresh) true
        bitrate hHeld rfl rfl
      obtain ⟨found, hFound⟩ := Option.isSome_iff_exists.mp hAfter
      rw [run, program, Interface.up, run_bind_answered, Interface.linkUp, run_bind_answered, hEnsure]
      simp only [hSet]
      rw [run_connect texts (.refused 0) hFound]
      exact ⟨rfl, touch_of_byName hFound⟩

/-- An `up` of a vcan interface probes the name up to a colon before it creates a link. -/
theorem exists_run_up_probed (bitrate : UInt32)
    (hValid : ValidLinkName (ioctlName (field (.ofString name.text)))) :
    ∃ faults, ioctlName (field (.ofString name.text)) ∈
      ((up .vcan bitrate).run texts name faults (held _ hValid)).2.touched := by
  have hHeld := byName_held hValid
  by_cases hPlain : ioctlName (field (.ofString name.text)) = field (.ofString name.text)
  · obtain ⟨faults, _, hTouched⟩ := exists_run_held texts (up .vcan bitrate) hValid hPlain
    exact ⟨faults, hTouched⟩
  · refine ⟨fun _ => answered (.refused 0), ?_⟩
    have hNone : (held _ hValid).kernel.byName (field (.ofString name.text)) = none := by
      simp [held, LinkTable.single, LinkTable.byName, hPlain]
    rw [run, program, Interface.up, run_bind_answered, Interface.linkUp, run_bind_answered]
    apply touched_run_of_mem
    apply touched_run_of_mem
    unfold Interface.ensureLink
    rw [run_bind_answered, run_linkExists, hNone]
    show _ ∈ ((IPCManager.createVcan (.ofString name.text)).run (observing texts)
      (fun _ => answered (.refused 0)) (Observed.touch ⟨held _ hValid, []⟩ (field (.ofString name.text))
        (held _ hValid).fresh)).2.touched
    rw [run_createVcan_held texts (.ofString name.text) (Observed.touch ⟨held _ hValid, []⟩
      (field (.ofString name.text)) (held _ hValid).fresh) hHeld]
    exact touch_of_byName hHeld

def bare : NetlinkManager :=
  ⟨.empty, []⟩

/-- The creation of a link on a kernel without any. -/
theorem create_bare {number : Nat} (hValid : ValidLinkName other)
    (hAssigned : assignedName (field name) number = some other) :
    ∃ kernel, createVcanInterfaceIfNotExists texts bare.kernel (field name)
        (answered (.accepted 1 number)).request.create = (.ok (), kernel) ∧
      kernel.links = [⟨1, other, .vcan, false, 0⟩] := by
  have hTake : (field name).take (ifNameSize - 1) = field name := by
    rw [field, List.take_take, min_self]
  have hAdded : ∃ after, LinkTable.empty.rtnlLinkAdd (field name) (.accepted 1 number) = (0, after) ∧
      after.links = LinkTable.empty.links ++ [⟨1, other, .vcan, false, 0⟩] :=
    LinkTable.rtnlLinkAdd_assigned (by simp [LinkTable.empty]) (by rw [hTake, hAssigned])
      (by simpa [LinkTable.empty] using hValid)
  obtain ⟨kernel, hAdd, hLinks⟩ := hAdded
  have hNone : bare.kernel.byName (ioctlName (field name)) = none := rfl
  refine ⟨kernel, ?_, hLinks⟩
  simp only [createVcanInterfaceIfNotExists, answered, hNone]
  simp only [bare, hAdd]
  rfl

theorem touch_of_created (observed : Observed) {kernel : LinkTable}
    (hEmpty : observed.manager.kernel.links = [])
    (hLinks : kernel.links = [⟨1, other, .vcan, false, 0⟩]) (looked : List UInt8) (cache : List Link) :
    other ∈ (observed.touch looked ⟨kernel, cache⟩).touched := by
  refine mem_touch_iff.mpr (.inr (.inr ?_))
  simp [LinkTable.changedNames, hEmpty, hLinks]

/-- Every name that a creation can give a link is given to one somewhere. -/
theorem exists_run_created (hValid : ValidLinkName other) (hCreates : Creates (field name) other) :
    ∃ faults, (createVcan.run texts name faults bare).1.isOk = true ∧
      other ∈ (createVcan.run texts name faults bare).2.touched := by
  obtain ⟨number, hAssigned⟩ := hCreates
  obtain ⟨kernel, hCreate, hLinks⟩ := create_bare texts hValid hAssigned
  refine ⟨fun _ => answered (.accepted 1 number), ?_⟩
  rw [run, program, run_createVcan texts (.accepted 1 number) name ⟨bare, []⟩ hCreate]
  exact ⟨rfl, touch_of_created ⟨bare, []⟩ rfl hLinks _ _⟩

section Up

variable {number : Nat} (bitrate : UInt32)

/-- On a kernel without links, `up` of a vcan interface creates one first. -/
theorem run_ensureLink_bare (hAssigned : assignedName (field (.ofString name.text)) number = some other)
    (hValid : ValidLinkName other) :
    ∃ observed : Observed, (Interface.ensureLink .vcan name.text).run (observing texts)
        (fun _ => answered (.accepted 1 number)) ⟨bare, []⟩ = (.ok (), observed) ∧
      observed.manager.kernel.links = [⟨1, other, .vcan, false, 0⟩] ∧ other ∈ observed.touched := by
  obtain ⟨kernel, hCreate, hLinks⟩ := create_bare texts hValid hAssigned
  have hNone : bare.kernel.byName (field (.ofString name.text)) = none := rfl
  have hCreated := run_createVcan texts (.accepted 1 number) (.ofString name.text)
    (Observed.touch ⟨bare, []⟩ (field (.ofString name.text)) bare.fresh) hCreate
  refine ⟨_, ?_, hLinks, touch_of_created
    (Observed.touch ⟨bare, []⟩ (field (.ofString name.text)) bare.fresh) rfl hLinks
      (field (.ofString name.text)) bare.fresh.linkCache⟩
  unfold Interface.ensureLink
  rw [run_bind_answered, run_linkExists, hNone]
  exact hCreated

/-- What it touches there, whether it succeeds or not. -/
theorem exists_run_up_touching (hValid : ValidLinkName other)
    (hCreates : Creates (field (.ofString name.text)) other) :
    ∃ faults, other ∈ ((up .vcan bitrate).run texts name faults bare).2.touched := by
  obtain ⟨number, hAssigned⟩ := hCreates
  obtain ⟨observed, hEnsure, _, hTouched⟩ := run_ensureLink_bare texts hAssigned hValid
  refine ⟨fun _ => answered (.accepted 1 number), ?_⟩
  rw [run, program, Interface.up, run_bind_answered, Interface.linkUp, run_bind_answered, hEnsure]
  exact touched_run_of_mem texts _ _ (touched_run_of_mem texts _ _ hTouched)

/-- It succeeds if it creates a link of its own name, and that is none of a CAN interface. -/
theorem exists_run_up_created (hValid : ValidLinkName other)
    (hField : other = field (.ofString name.text)) (hPlain : 37 ∉ other) (hPrefix : ¬HasCanPrefix other) :
    ∃ faults, ((up .vcan bitrate).run texts name faults bare).1.isOk = true ∧
      other ∈ ((up .vcan bitrate).run texts name faults bare).2.touched := by
  subst hField
  have hAssigned : assignedName (field (.ofString name.text)) 0 = some _ :=
    assignedName_of_not_mem hValid hPlain 0
  obtain ⟨observed, hEnsure, hLinks, hTouched⟩ := run_ensureLink_bare texts hAssigned hValid
  have hLink : observed.manager.kernel.byName (field (.ofString name.text)) =
      some ⟨1, field (.ofString name.text), .vcan, false, 0⟩ :=
    LinkTable.byName_eq_some_iff.mpr ⟨by simp [hLinks], rfl⟩
  have hStart : (StringView.ofString name.text).startsWith (ascii "can") = false := by
    rw [hasCanPrefix_field] at hPrefix
    exact Bool.eq_false_of_not_eq_true hPrefix
  have hBranch := processRequest_setUp texts observed.manager hStart bitrate []
    (answered (.accepted 1 0)).request
  have hState : StateOutcome observed.manager (field (.ofString name.text)) true noFaults.final _ _ :=
    stateOutcome texts true noFaults.final
  have hResult := hState.result_of_applies hLink (by decide)
  have hUp := hState.byName hLink
  have hSet := run_set_answered texts (.accepted 1 0) hBranch hResult
  refine ⟨fun _ => answered (.accepted 1 0), ?_⟩
  rw [run, program, Interface.up, run_bind_answered, Interface.linkUp, run_bind_answered, hEnsure]
  simp only [hSet]
  rw [run_connect texts (.accepted 1 0) hUp]
  exact ⟨rfl, touch_of_byName hUp⟩

end Up

/-- Operations that can meet in a link do so somewhere. -/
theorem exists_of_collides (hValid : ValidLinkName other) (h : Collides call first second other) :
    ∃ faults others manager, (call.run texts first faults manager).1.isOk = true ∧
      other ∈ (call.run texts first faults manager).2.touched ∧
      other ∈ (call.run texts second others manager).2.touched := by
  have hFound (hLooks : Finds call first other) (hOther : Finds call second other) :
      ∃ faults others manager, (call.run texts first faults manager).1.isOk = true ∧
        other ∈ (call.run texts first faults manager).2.touched ∧
        other ∈ (call.run texts second others manager).2.touched := by
    obtain ⟨faults, hOk, hTouched⟩ := exists_run_held texts call hValid hLooks
    obtain ⟨others, _, hMet⟩ := exists_run_held texts call hValid hOther
    exact ⟨faults, others, held other hValid, hOk, hTouched, hMet⟩
  cases call with
  | linkExists | isUp | set up bitrate | down =>
      obtain ⟨hLooks, hOther⟩ | ⟨hNever, _⟩ := h
      · exact hFound hLooks hOther
      · exact absurd hNever id
  | createVcan =>
      obtain ⟨hLooks, hOther⟩ | ⟨hMakes, hOther⟩ := h
      · exact hFound hLooks hOther
      · obtain ⟨faults, hOk, hTouched⟩ := exists_run_created texts hValid hMakes
        obtain ⟨others, _, hMet⟩ := exists_run_created texts hValid hOther
        exact ⟨faults, others, bare, hOk, hTouched, hMet⟩
  | up type bitrate =>
      cases type with
      | can =>
          obtain ⟨hLooks, hOther⟩ | ⟨hNever, _⟩ := h
          · exact hFound hLooks hOther
          · exact absurd hNever id
      | vcan =>
          obtain ⟨hField, (hOther | rfl) | ⟨hPrefix, number, hAssigned⟩⟩ := h
          · exact hFound hField hOther
          · obtain ⟨faults, hOk, hTouched⟩ := exists_run_held texts (up .vcan bitrate) hValid hField
            obtain ⟨others, hMet⟩ := exists_run_up_probed texts bitrate hValid
            exact ⟨faults, others, held _ hValid, hOk, hTouched, hMet⟩
          · obtain ⟨faults, hOk, hTouched⟩ := exists_run_up_created texts bitrate hValid
              hField (not_mem_of_assignedName hAssigned) hPrefix
            obtain ⟨others, hMet⟩ := exists_run_up_touching texts bitrate hValid
              ⟨number, hAssigned⟩
            exact ⟨faults, others, bare, hOk, hTouched, hMet⟩

end Smooth

theorem eq_ok_of_isOk {result : Except Error Unit} (h : result.isOk = true) : result = .ok () := by
  cases result with
  | error error => cases h
  | ok done => rfl

/-- Operations that have met in a link are such that can. -/
theorem collides_of_touched (hFirst : 0 ∉ first.text) (hSecond : 0 ∉ second.text)
    {faults others : Nat → CallFaults} {manager : NetlinkManager}
    (hOk : (call.run texts first faults manager).1.isOk = true)
    (hMem : other ∈ (call.run texts first faults manager).2.touched)
    (hOther : other ∈ (call.run texts second others manager).2.touched) :
    Collides call first second other := by
  -- a link of the start both have found, any other both can create
  have hBoth : call.Looks first other ∧ call.Looks second other ∨
      call.Makes first other ∧ call.Makes second other := by
    rcases (concerns_of_touched texts hFirst hMem).2 with ⟨hLooks, hFound⟩ | ⟨hMakes, hNone⟩ <;>
    rcases (concerns_of_touched texts hSecond hOther).2 with ⟨hMet, hFoundToo⟩ | ⟨hMade, hNoneToo⟩
    · exact .inl ⟨hLooks, hMet⟩
    · simp [hNoneToo] at hFound
    · simp [hNone] at hFoundToo
    · exact .inr ⟨hMakes, hMade⟩
  cases call with
  | linkExists | isUp | set up bitrate | down | createVcan => exact hBoth
  | up type bitrate =>
      cases type with
      | can => exact hBoth
      | vcan =>
          obtain ⟨hTouched, hFree⟩ := up_vcan_cases texts hFirst (eq_ok_of_isOk hOk)
          have hField : other = field (.ofString first.text) :=
            (hTouched other hMem).resolve_left (by simp)
          refine ⟨hField, ?_⟩
          rcases (concerns_of_touched texts hSecond hOther).2 with ⟨hLooks, _⟩ | ⟨hMakes, hNone⟩
          · exact .inl hLooks
          · exact .inr ⟨hField ▸ hFree (hField ▸ hNone), hMakes⟩

theorem neverAlias_iff (hFirst : 0 ∉ first.text) (hSecond : 0 ∉ second.text) :
    NeverAlias texts call first second ↔
      ¬∃ other, ValidLinkName other ∧ Collides call first second other := by
  constructor
  · rintro hNever ⟨other, hValid, hCollides⟩
    obtain ⟨faults, others, manager, hOk, hTouched, hMet⟩ :=
      exists_of_collides texts hValid hCollides
    exact hNever faults others manager hOk other hTouched hMet
  · intro hNone faults others manager hOk other hMem hOther
    exact hNone ⟨other, (concerns_of_touched texts hFirst hMem).1,
      collides_of_touched texts hFirst hSecond hOk hMem hOther⟩

/-- The name comes into the field unchanged, or it is all the same what the daemon looks
for, or else that is no name for a link. -/
def Represented (call : ApiCall) (name : StringView) : Prop :=
  field (call.view name) = name.text ∨ call.lookedUp name = name.text ∨
    ¬ValidLinkName (call.lookedUp name)

theorem finds_lookedUp (call : ApiCall) (name : StringView) : call.Finds name (call.lookedUp name) := by
  cases call with
  | set up bitrate => exact .inl rfl
  | linkExists | isUp | createVcan | down | up type bitrate => rfl

theorem lookedUp_of_valid (call : ApiCall) (hValid : ValidLinkName (field (call.view name))) :
    call.lookedUp name = field (call.view name) := by
  cases call with
  | createVcan => exact ioctlName_of_valid hValid
  | linkExists | isUp | set up bitrate | down | up type bitrate => rfl

/-- A successful operation finds a link, by the request or by the whole name, or creates one. -/
theorem touched_of_ok (hText : 0 ∉ name.text) {faults : Nat → CallFaults} {manager : NetlinkManager}
    (hOk : (call.run texts name faults manager).1.isOk = true)
    (hMem : other ∈ (call.run texts name faults manager).2.touched) :
    other = call.lookedUp name ∨ other = name.text ∨ call.Makes name other := by
  have hLooked (hLooks : call.Looks name other → other = call.lookedUp name ∨ other = name.text) :
      other = call.lookedUp name ∨ other = name.text ∨ call.Makes name other := by
    rcases (concerns_of_touched texts hText hMem).2 with ⟨hFound, _⟩ | ⟨hMakes, _⟩
    · exact (hLooks hFound).imp_right .inl
    · exact .inr (.inr hMakes)
  cases call with
  | set up bitrate => exact hLooked id
  | linkExists | isUp | down | createVcan => exact hLooked .inl
  | up type bitrate =>
      cases type with
      | can => exact hLooked .inl
      | vcan =>
          have hTouched := (up_vcan_cases texts hText (eq_ok_of_isOk hOk)).1 other hMem
          exact .inl (hTouched.resolve_left (by simp))

theorem creates_of_makes (h : call.Makes name other) : Creates (field (call.view name)) other := by
  cases call with
  | createVcan => exact h
  | up type bitrate =>
      cases type with
      | can => exact absurd h id
      | vcan => exact h
  | linkExists | isUp | set up bitrate | down => exact absurd h id

theorem field_ne_nil (hNe : name.text ≠ []) (hText : 0 ∉ name.text) : field (call.view name) ≠ [] := by
  have hData : ∃ behind, (call.view name).data = name.text ++ behind := by
    cases call <;> exact ⟨_, rfl⟩
  obtain ⟨behind, hData⟩ := hData
  rw [field, hData, CString.read_append_of_not_mem hText]
  cases hStart : name.text with
  | nil => exact absurd hStart hNe
  | cons byte rest => simp [ifNameSize]

theorem neverMisled_iff (hNe : name.text ≠ []) (hText : 0 ∉ name.text) :
    NeverMisled texts call name ↔ Represented call name := by
  constructor
  · intro hNever
    by_contra hNot
    simp only [Represented, not_or, not_not] at hNot
    obtain ⟨hField, hOther, hValid⟩ := hNot
    obtain ⟨faults, hOk, hTouched⟩ := exists_run_held texts call hValid (finds_lookedUp call name)
    exact hOther (hNever hField faults _ hOk _ hTouched)
  · intro hRepresented hField faults manager hOk other hMem
    have hValid := (concerns_of_touched texts hText hMem).1
    have hKept := hRepresented.resolve_left hField
    rcases touched_of_ok texts hText hOk hMem with hLooked | hSame | hMakes
    · exact hLooked.trans (hKept.resolve_right fun hInvalid => hInvalid (hLooked ▸ hValid))
    · exact hSame
    · -- a name that the kernel takes for a link is looked for as it is
      obtain ⟨number, hAssigned⟩ := creates_of_makes hMakes
      have hCreated := valid_of_assignedName (field_ne_nil hNe hText) hAssigned
      have hLooked := lookedUp_of_valid call hCreated
      rcases hKept with hSame | hInvalid
      · exact absurd (hLooked.symm.trans hSame) hField
      · exact absurd (hLooked ▸ hCreated) hInvalid

/-- Two names are kept apart, and neither leads to another link, exactly if no name for
a link is one of both, and what the field does not hold of a name leaves no name for one. -/
theorem keeps_apart_iff (call : ApiCall) (hFirst : first.text ≠ [] ∧ 0 ∉ first.text)
    (hSecond : second.text ≠ [] ∧ 0 ∉ second.text) :
    (NeverAlias texts call first second ∧ NeverMisled texts call first ∧ NeverMisled texts call second) ↔
      (¬∃ other, ValidLinkName other ∧ Collides call first second other) ∧
        Represented call first ∧ Represented call second := by
  rw [neverAlias_iff texts hFirst.2 hSecond.2, neverMisled_iff texts hFirst.1 hFirst.2,
    neverMisled_iff texts hSecond.1 hSecond.2]

theorem keeps_apart_can0_can1 :
    (NeverAlias ⟨fun _ => [], fun _ => []⟩ .down (.ofString (ascii "can0")) (.ofString (ascii "can1")) ∧
        NeverMisled ⟨fun _ => [], fun _ => []⟩ .down (.ofString (ascii "can0")) ∧
        NeverMisled ⟨fun _ => [], fun _ => []⟩ .down (.ofString (ascii "can1"))) ↔
      (¬∃ other, ValidLinkName other ∧
          Collides .down (.ofString (ascii "can0")) (.ofString (ascii "can1")) other) ∧
        Represented .down (.ofString (ascii "can0")) ∧ Represented .down (.ofString (ascii "can1")) :=
  keeps_apart_iff ⟨fun _ => [], fun _ => []⟩ .down (by decide +kernel) (by decide +kernel)

/-- A name of the concurrency test and the one that it takes for a retry. -/
theorem retry_name_aliases :
    ¬∀ (texts : ErrorTexts) (call : ApiCall) (first second : List UInt8),
      first ≠ [] ∧ 0 ∉ first → second ≠ [] ∧ 0 ∉ second → first ≠ second →
        NeverAlias texts call (.ofString first) (.ofString second) := by
  intro hClaim
  have hApart := hClaim ⟨fun _ => [], fun _ => []⟩ .createVcan (ascii "vcan_w1_12345_6789")
    (ascii "vcan_w1_12345_6789_r1") (by decide +kernel) (by decide +kernel) (by decide +kernel)
  have hFirst : ascii "vcan_w1_12345_6" =
      ioctlName (field (.ofString (ascii "vcan_w1_12345_6789"))) := by decide +kernel
  have hSecond : ascii "vcan_w1_12345_6" =
      ioctlName (field (.ofString (ascii "vcan_w1_12345_6789_r1"))) := by decide +kernel
  have hCollides : Collides .createVcan (.ofString (ascii "vcan_w1_12345_6789"))
      (.ofString (ascii "vcan_w1_12345_6789_r1")) (ascii "vcan_w1_12345_6") := .inl ⟨hFirst, hSecond⟩
  obtain ⟨faults, others, manager, hOk, hTouched, hMet⟩ := exists_of_collides ⟨fun _ => [], fun _ => []⟩
    (by decide +kernel) hCollides
  exact hApart faults others manager hOk _ hTouched hMet

end ApiCall
end HyCAN
