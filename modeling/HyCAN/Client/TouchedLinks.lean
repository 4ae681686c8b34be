import HyCAN.Client.Reachable

/-! Which links an operation of the client API reads, creates or changes. Every call
notes the link that it looks up by name, if there is one, and the links that differ
afterwards. The daemon may be reachable or not, answer or not, and fail anywhere. -/
namespace HyCAN

open NetlinkManager Transition

/-- The names of the links that differ between the tables. -/
def LinkTable.changedNames (before after : LinkTable) : List (List UInt8) :=
  (after.links.filter (· ∉ before.links) ++ before.links.filter (· ∉ after.links)).map Link.name

/-- What happens to a request on its way, before its call has returned. -/
inductive Transport where
  | answered
  /-- The daemon handles the request, and its response does not come. -/
  | lost (error : Error)
  /-- Not sent, or given up while it is queued; the daemon may handle it later as a request
  of its own. -/
  | unsent (error : Error)

structure CallFaults where
  exception : Option (List UInt8)
  transport : Transport
  request : RequestFaults
  after : List UInt8
  rules : KernelRules
  indexFails : Bool

/-- The daemon's manager with the kernel, and the names of the links touched so far. -/
structure Observed where
  manager : NetlinkManager
  touched : List (List UInt8)

/-- One call has looked up the name and left the manager as given. -/
def Observed.touch (observed : Observed) (name : List UInt8) (manager : NetlinkManager) : Observed where
  manager := manager
  touched := observed.touched ++ (if (observed.manager.kernel.byName name).isSome then [name] else []) ++
    observed.manager.kernel.changedNames manager.kernel

/-- The name by which the daemon looks for the link of a request. -/
def NetlinkRequest.lookedUp (request : NetlinkRequest) (after : List UInt8) : List UInt8 :=
  if RequestType.ofByte request.operation = some .createVcanInterface then ioctlName (request.name after)
  else request.name after

def observing (texts : ErrorTexts) : Handler ClientCall.Answer Observed CallFaults
  | .makeClient, faults, observed => (faults.exception, observed)
  | .sendRequest request, faults, observed =>
    let handled := observed.manager.processRequest texts request faults.after faults.request
    let touched := observed.touch (request.lookedUp faults.after) handled.2
    match faults.transport with
    | .answered => (.ok handled.1, touched)
    | .lost error => (.error error, touched)
    | .unsent error => (.error error, observed)
  | .system command, faults, observed =>
    let done := IpCommand.run faults.rules observed.manager.kernel command
    (done.1, observed.touch command.name { observed.manager with kernel := done.2 })
  | .interfaceIndex name, faults, observed =>
    (if faults.indexFails then .error [] else lookUpIndex observed.manager.kernel name,
      observed.touch (ioctlName name) observed.manager)

section Touched

variable {observed : Observed} {manager : NetlinkManager} {name other : List UInt8} {before after : LinkTable}

theorem mem_touch_iff : other ∈ (observed.touch name manager).touched ↔
    other ∈ observed.touched ∨ (other = name ∧ (observed.manager.kernel.byName name).isSome = true) ∨
      other ∈ observed.manager.kernel.changedNames manager.kernel := by
  by_cases hSome : (observed.manager.kernel.byName name).isSome = true
  · simp [Observed.touch, hSome]
  · simp [Observed.touch, hSome]

/-- Only links have their names noted. -/
theorem LinkTable.valid_of_mem_changedNames (h : other ∈ before.changedNames after) :
    ValidLinkName other := by
  obtain ⟨link, hMem, rfl⟩ := List.mem_map.mp h
  rcases List.mem_append.mp hMem with hAfter | hBefore
  · exact after.nameValid link (List.mem_of_mem_filter hAfter)
  · exact before.nameValid link (List.mem_of_mem_filter hBefore)

theorem LinkTable.exists_of_mem_changedNames (h : other ∈ before.changedNames after) :
    ∃ link, link.name = other ∧ ¬(link ∈ after.links ↔ link ∈ before.links) := by
  obtain ⟨link, hMem, rfl⟩ := List.mem_map.mp h
  refine ⟨link, rfl, ?_⟩
  rcases List.mem_append.mp hMem with hAfter | hBefore
  · simp only [List.mem_filter, decide_eq_true_eq] at hAfter
    simp [hAfter]
  · simp only [List.mem_filter, decide_eq_true_eq] at hBefore
    simp [hBefore]

theorem LinkTable.changedNames_self (table : LinkTable) : table.changedNames table = [] := by
  simp [changedNames]

theorem mem_touch_of_kernel (hKernel : manager.kernel = observed.manager.kernel)
    (h : other ∈ (observed.touch name manager).touched) : other ∈ observed.touched ∨ other = name := by
  rcases mem_touch_iff.mp h with hOld | ⟨hSame, _⟩ | hChanged
  · exact .inl hOld
  · exact .inr hSame
  · simp [hKernel, LinkTable.changedNames_self] at hChanged

/-- One more link is the only one that differs. -/
theorem mem_touch_of_added {link : Link} (hLinks : manager.kernel.links = observed.manager.kernel.links ++ [link])
    (h : other ∈ (observed.touch name manager).touched) :
    other ∈ observed.touched ∨ other = name ∨ other = link.name := by
  rcases mem_touch_iff.mp h with hOld | ⟨hSame, _⟩ | hChanged
  · exact .inl hOld
  · exact .inr (.inl hSame)
  · obtain ⟨changed, rfl, hDiffers⟩ := LinkTable.exists_of_mem_changedNames hChanged
    have hNew : changed = link := by
      by_contra hNe
      simp [hLinks, hNe] at hDiffers
    exact .inr (.inr (congrArg Link.name hNew))

theorem valid_of_byName {table : LinkTable} (h : (table.byName name).isSome = true) :
    ValidLinkName name := by
  obtain ⟨link, hLink⟩ := Option.isSome_iff_exists.mp h
  obtain ⟨hMem, rfl⟩ := LinkTable.byName_eq_some_iff.mp hLink
  exact table.nameValid link hMem

end Touched

/-- No link goes away or gets another name. -/
def LinkTable.NamesKept (before after : LinkTable) : Prop :=
  ∀ name, after.byName name = none → before.byName name = none

theorem LinkTable.NamesKept.refl (table : LinkTable) : table.NamesKept table := fun _ => id

theorem LinkTable.NamesKept.trans {first second third : LinkTable} (h : first.NamesKept second)
    (hNext : second.NamesKept third) : first.NamesKept third :=
  fun name hNone => h name (hNext name hNone)

theorem LinkTable.NamesKept.of_subset {before after : LinkTable}
    (h : ∀ link ∈ before.links, link ∈ after.links) : before.NamesKept after := by
  intro name hNone
  cases hLink : before.byName name with
  | none => rfl
  | some link =>
      obtain ⟨hMem, hName⟩ := byName_eq_some_iff.mp hLink
      simp [byName_eq_some_iff.mpr ⟨h link hMem, hName⟩] at hNone

theorem LinkTable.ChangedAt.name_of_changed {name : List UInt8} {before after : LinkTable} {link : Link}
    (h : ChangedAt name before after) (hDiffers : ¬(link ∈ after.links ↔ link ∈ before.links)) :
    link.name = name ∧ (before.byName link.name).isSome = true := by
  have hName : link.name = name := by
    by_contra hNe
    exact hDiffers (h.mem_iff hNe)
  refine ⟨hName, ?_⟩
  by_contra hNone
  rw [hName, Option.not_isSome_iff_eq_none] at hNone
  exact hDiffers (by rw [h.eq_of_none hNone])

theorem LinkTable.ChangedAt.namesKept {name : List UInt8} {before after : LinkTable}
    (h : ChangedAt name before after) : before.NamesKept after := by
  intro other hNone
  cases hLink : before.byName other with
  | none => rfl
  | some link =>
      by_cases hSame : other = name
      · obtain ⟨changed, hChanged, _⟩ := h.kind (hSame ▸ hLink)
        simp [← hSame, hNone] at hChanged
      · obtain ⟨hMem, hName⟩ := byName_eq_some_iff.mp hLink
        have hLeft := (h.mem_iff (hName ▸ hSame)).mpr hMem
        simp [byName_eq_some_iff.mpr ⟨hLeft, hName⟩] at hNone

/-- The names that a link can get from a request to create it. -/
def Creates (name created : List UInt8) : Prop :=
  ∃ number, assignedName name number = some created

namespace ClientCall

/-- The names by which a call looks links up. -/
def Looks : ClientCall → List UInt8 → Prop
  | .makeClient, _ => False
  | .sendRequest request, other => ∃ after, other = request.lookedUp after
  | .system command, other => other = command.name
  | .interfaceIndex name, other => other = ioctlName name

/-- The names of the links that a call can create. -/
def Makes : ClientCall → List UInt8 → Prop
  | .sendRequest request, other => RequestType.ofByte request.operation = some .createVcanInterface ∧
      ∃ after, Creates ((request.name after).take (ifNameSize - 1)) other
  | _, _ => False

end ClientCall

section Calls

variable (texts : ErrorTexts)

/-- A creation leaves the links that are there as they are. -/
theorem processRequest_create (manager : NetlinkManager) (request : NetlinkRequest)
    (hOperation : RequestType.ofByte request.operation = some .createVcanInterface)
    (after : List UInt8) (faults : RequestFaults) :
    (manager.processRequest texts request after faults).2.kernel =
      (createVcanInterfaceIfNotExists texts manager.kernel (request.name after) faults.create).2 := by
  simp only [processRequest, hOperation]
  generalize createVcanInterfaceIfNotExists texts manager.kernel (request.name after)
    faults.create = created
  obtain ⟨result, kernel⟩ := created
  cases result <;> rfl

/-- A new link has a new name, which the kernel has assigned. -/
theorem create_cases (kernel : LinkTable) (name : List UInt8) (faults : CreateFaults) :
    (createVcanInterfaceIfNotExists texts kernel name faults).2 = kernel ∨
      ∃ link, link.kind = .vcan ∧ kernel.byName link.name = none ∧
        Creates (name.take (ifNameSize - 1)) link.name ∧
        (createVcanInterfaceIfNotExists texts kernel name faults).2.links = kernel.links ++ [link] := by
  rcases createVcanInterfaceIfNotExists_links texts kernel name faults with hSame | hAdded
  · exact .inl hSame
  · rw [hAdded]
    rcases kernel.links_rtnlLinkAdd name faults.add with hSame | ⟨link, hKind, hLinks, hNew, hName⟩
    · exact .inl (LinkTable.eq_of_links hSame)
    · exact .inr ⟨link, hKind, LinkTable.byName_eq_none hNew, hName, hLinks⟩

/-- A request changes the link of its name, or creates one. -/
theorem processRequest_changes (manager : NetlinkManager) (request : NetlinkRequest)
    (after : List UInt8) (faults : RequestFaults) {link : Link}
    (h : ¬(link ∈ (manager.processRequest texts request after faults).2.kernel.links ↔
      link ∈ manager.kernel.links)) :
    RequestType.ofByte request.operation = some .setInterfaceState ∧ link.name = request.name after ∧
        (manager.kernel.byName link.name).isSome = true ∨
      (ClientCall.sendRequest request).Makes link.name ∧ manager.kernel.byName link.name = none := by
  cases hOperation : RequestType.ofByte request.operation with
  | none => simp [processRequest, hOperation] at h
  | some operation =>
      cases operation with
      | setInterfaceState =>
          have hSet := setOutcome_processRequest texts manager request hOperation after faults
          exact .inl ⟨rfl, hSet.changedAt.name_of_changed h⟩
      | createVcanInterface =>
          right
          rw [processRequest_create texts manager request hOperation] at h
          rcases create_cases texts manager.kernel (request.name after) faults.create with
            hSame | ⟨created, _, hNone, hName, hLinks⟩
          · simp [hSame] at h
          · have hLink : link = created := by
              by_contra hNe
              simp [hLinks, hNe] at h
            rw [hLink]
            exact ⟨⟨hOperation, after, hName⟩, hNone⟩
      | interfaceExists | interfaceIsUp => simp [processRequest, hOperation] at h
      | checkInterfaceState | validateCanHardware | clientRegister =>
          simp [processRequest, hOperation] at h

theorem processRequest_namesKept (manager : NetlinkManager) (request : NetlinkRequest)
    (after : List UInt8) (faults : RequestFaults) :
    manager.kernel.NamesKept (manager.processRequest texts request after faults).2.kernel := by
  cases hOperation : RequestType.ofByte request.operation with
  | none => simp [processRequest, hOperation, LinkTable.NamesKept.refl]
  | some operation =>
      cases operation with
      | setInterfaceState =>
          exact (setOutcome_processRequest texts manager request hOperation after faults).changedAt.namesKept
      | createVcanInterface =>
          rw [processRequest_create texts manager request hOperation]
          rcases create_cases texts manager.kernel (request.name after) faults.create with
            hSame | ⟨created, _, _, _, hLinks⟩
          · rw [hSame]
            exact .refl _
          · exact .of_subset fun link hMem => by simp [hLinks, hMem]
      | interfaceExists | interfaceIsUp =>
          simp [processRequest, hOperation, LinkTable.NamesKept.refl]
      | checkInterfaceState | validateCanHardware | clientRegister =>
          simp [processRequest, hOperation, LinkTable.NamesKept.refl]

theorem observing_namesKept (call : ClientCall) (faults : CallFaults) (observed : Observed) :
    observed.manager.kernel.NamesKept (observing texts call faults observed).2.manager.kernel := by
  cases call with
  | makeClient | interfaceIndex name => exact .refl _
  | sendRequest request =>
      simp only [observing]
      cases faults.transport with
      | answered | lost error => exact processRequest_namesKept texts _ request _ _
      | unsent error => exact .refl _
  | system command => exact (IpCommand.changedAt_run _ _ command).namesKept

/-- A call changes a link that it has found, or creates one under a name that was free. -/
theorem observing_changes {call : ClientCall} {faults : CallFaults} {observed : Observed} {link : Link}
    (h : ¬(link ∈ (observing texts call faults observed).2.manager.kernel.links ↔
      link ∈ observed.manager.kernel.links)) :
    call.Looks link.name ∧ (observed.manager.kernel.byName link.name).isSome = true ∨
      call.Makes link.name ∧ observed.manager.kernel.byName link.name = none := by
  cases call with
  | makeClient | interfaceIndex name => exact absurd Iff.rfl h
  | sendRequest request =>
      simp only [observing] at h
      cases hTransport : faults.transport with
      | answered | lost error =>
          rw [hTransport] at h
          rcases processRequest_changes texts _ request _ _ h with ⟨hSet, hName, hFound⟩ | hMakes
          · refine .inl ⟨⟨faults.after, ?_⟩, hFound⟩
            rw [NetlinkRequest.lookedUp, hSet, if_neg (by decide), hName]
          · exact .inr hMakes
      | unsent error =>
          rw [hTransport] at h
          exact absurd Iff.rfl h
  | system command => exact .inl ((IpCommand.changedAt_run _ _ command).name_of_changed h)

/-- Whatever a call touches is a link that it finds, or one that it creates. -/
theorem mem_touched_observing {call : ClientCall} {faults : CallFaults} {observed : Observed}
    {other : List UInt8} (h : other ∈ (observing texts call faults observed).2.touched) :
    other ∈ observed.touched ∨ ValidLinkName other ∧
      (call.Looks other ∧ (observed.manager.kernel.byName other).isSome = true ∨
        call.Makes other ∧ observed.manager.kernel.byName other = none) := by
  have hTouch {name : List UInt8} {manager : NetlinkManager} (hLooks : call.Looks name)
      (hKernel : (observing texts call faults observed).2.manager.kernel = manager.kernel)
      (hMem : other ∈ (observed.touch name manager).touched) :
      other ∈ observed.touched ∨ ValidLinkName other ∧
        (call.Looks other ∧ (observed.manager.kernel.byName other).isSome = true ∨
          call.Makes other ∧ observed.manager.kernel.byName other = none) := by
    rcases mem_touch_iff.mp hMem with hOld | ⟨rfl, hSome⟩ | hChanged
    · exact .inl hOld
    · exact .inr ⟨valid_of_byName hSome, .inl ⟨hLooks, hSome⟩⟩
    · obtain ⟨link, rfl, hDiffers⟩ := LinkTable.exists_of_mem_changedNames hChanged
      exact .inr ⟨LinkTable.valid_of_mem_changedNames hChanged,
        observing_changes texts (hKernel ▸ hDiffers)⟩
  cases call with
  | makeClient => exact .inl h
  | sendRequest request =>
      cases hTransport : faults.transport with
      | answered | lost error =>
          simp only [observing, hTransport] at h
          exact hTouch ⟨faults.after, rfl⟩ (by simp only [observing, hTransport]; rfl) h
      | unsent error =>
          simp only [observing, hTransport] at h
          exact .inl h
  | system command => exact hTouch (show (ClientCall.system command).Looks command.name from rfl) rfl h
  | interfaceIndex name => exact hTouch (show (ClientCall.interfaceIndex name).Looks (ioctlName name) from rfl) rfl h

/-- A name that leads to a link only after the call is one that the call makes. -/
theorem makes_of_new {call : ClientCall} {faults : CallFaults} {observed : Observed}
    {other : List UInt8} (hNone : observed.manager.kernel.byName other = none)
    (hSome : ((observing texts call faults observed).2.manager.kernel.byName other).isSome = true) :
    call.Makes other := by
  obtain ⟨link, hLink⟩ := Option.isSome_iff_exists.mp hSome
  obtain ⟨hMem, rfl⟩ := LinkTable.byName_eq_some_iff.mp hLink
  have hNew : link ∉ observed.manager.kernel.links := by
    intro hOld
    rw [LinkTable.byName_eq_some_iff.mpr ⟨hOld, rfl⟩] at hNone
    cases hNone
  rcases observing_changes texts (fun hSame => hNew (hSame.mp hMem)) with ⟨_, hFound⟩ | ⟨hMakes, _⟩
  · rw [hNone] at hFound
    cases hFound
  · exact hMakes

end Calls

end HyCAN
