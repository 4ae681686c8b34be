import HyCAN.Client.Interface
import HyCAN.Daemon.NetlinkManagerSteps

/-! A client whose daemon is there and whose kernel refuses nothing: what each of its
requests is answered, and what it does to the links. -/
namespace HyCAN

theorem StringView.read_ofString {name : List UInt8} (hText : 0 ∉ name) :
    CString.read (ofString name).data = name := by
  show CString.read (name ++ [0]) = name
  rw [CString.read_append_of_not_mem hText, CString.read_cons_zero, List.append_nil]

/-- A view of a whole string brings a name that fits into the field unchanged. -/
theorem StringView.take_read_ofString {name : List UInt8} (hText : 0 ∉ name)
    (hLength : name.length < ifNameSize) :
    (CString.read (ofString name).data).take (ifNameSize - 1) = name := by
  rw [read_ofString hText, List.take_of_length_le (Nat.le_sub_one_of_lt hLength)]

def plainBytes : List UInt8 :=
  ascii "abcdefghijklmnopqrstuvwxyzABCDEFGHIJKLMNOPQRSTUVWXYZ0123456789_-"

/-- 1 to 15 letters, digits, underscores or hyphens. -/
def PlainName (name : List UInt8) : Prop :=
  name ≠ [] ∧ name.length < ifNameSize ∧ ∀ byte ∈ name, byte ∈ plainBytes

instance (name : List UInt8) : Decidable (PlainName name) := inferInstanceAs (Decidable (_ ∧ _))

namespace PlainName

variable {name : List UInt8}

/-- The bytes that number a new link, or that the kernel refuses in a name or as one. -/
def specialBytes : List UInt8 :=
  [37, 46, 0, 47, 58, 32, 9, 10, 11, 12, 13, 160]

theorem not_mem (h : PlainName name) {byte : UInt8} (hSpecial : byte ∈ specialBytes) : byte ∉ name := by
  have hNone : ∀ special ∈ specialBytes, special ∉ plainBytes := by decide +kernel
  intro hMem
  exact hNone byte hSpecial (h.2.2 byte hMem)

theorem valid (h : PlainName name) : ValidLinkName name := by
  have hDot : (46 : UInt8) ∉ name := h.not_mem (by decide)
  refine ⟨h.1, h.2.1, ?_, ?_, ?_⟩
  · rintro rfl
    exact hDot (by decide)
  · rintro rfl
    exact hDot (by decide)
  · intro byte hMem hBad
    have hSpecial : byte ∈ specialBytes := List.mem_cons_of_mem _ (List.mem_cons_of_mem _ hBad)
    exact h.not_mem hSpecial hMem

theorem read_take (h : PlainName name) :
    (CString.read (StringView.ofString name).data).take (ifNameSize - 1) = name :=
  StringView.take_read_ofString (h.not_mem (by decide)) h.2.1

end PlainName

/-- The request's name is the text of its field, which the constructors close. -/
theorem NetlinkRequest.name_ofQuery (operation : RequestType) (data after : List UInt8) :
    (NetlinkRequest.ofQuery operation data).name after = (CString.read data).take (ifNameSize - 1) :=
  NetlinkRequest.read_nameField data after

namespace LinkTable

/-- The index that the kernel gives a new link: any that is free. -/
def freshIndex (table : LinkTable) (wish : Nat) : Nat :=
  if wish ∈ table.links.map Link.index then (table.links.map Link.index).foldr max 0 + 1 else wish

theorem freshIndex_not_mem (table : LinkTable) (wish : Nat) :
    table.freshIndex wish ∉ table.links.map Link.index := by
  have hBound : ∀ indices : List Nat, ∀ index ∈ indices, index ≤ indices.foldr max 0 := by
    intro indices
    induction indices with
    | nil => simp
    | cons head rest ih =>
        intro index hMem
        rw [List.foldr_cons]
        rcases List.mem_cons.mp hMem with rfl | hRest
        · exact le_max_left _ _
        · exact (ih index hRest).trans (le_max_right _ _)
  unfold freshIndex
  split_ifs with hTaken
  · intro hMem
    have hLe := hBound _ _ hMem
    omega
  · exact hTaken

/-- A creation that the kernel accepts. -/
theorem rtnlLinkAdd_assigned {table : LinkTable} {name assigned : List UInt8} {index number : Nat}
    (hTaken : name.take (ifNameSize - 1) ∉ table.links.map Link.name)
    (hAssigned : assignedName (name.take (ifNameSize - 1)) number = some assigned)
    (hFree : index ∉ table.links.map Link.index ∧ assigned ∉ table.links.map Link.name ∧
      ValidLinkName assigned) :
    ∃ after, table.rtnlLinkAdd name (.accepted index number) = (0, after) ∧
      after.links = table.links ++ [⟨index, assigned, .vcan, false, 0⟩] := by
  simp only [rtnlLinkAdd, hAssigned]
  rw [if_neg hTaken, dif_pos hFree]
  exact ⟨_, rfl, rfl⟩

/-- A new, valid name without a template is the link's name. -/
theorem rtnlLinkAdd_fresh {table : LinkTable} {name : List UInt8} (hValid : ValidLinkName name)
    (hPlain : 37 ∉ name) (hNone : table.byName name = none) (wish number : Nat) :
    ∃ after, table.rtnlLinkAdd name (.accepted (table.freshIndex wish) number) = (0, after) ∧
      after.links = table.links ++ [⟨table.freshIndex wish, name, .vcan, false, 0⟩] := by
  have hTake : name.take (ifNameSize - 1) = name :=
    List.take_of_length_le (Nat.le_sub_one_of_lt hValid.2.1)
  have hFree : name ∉ table.links.map Link.name := by
    intro hMem
    obtain ⟨link, hLink, hName⟩ := List.mem_map.mp hMem
    simp [byName_eq_some_iff.mpr ⟨hLink, hName⟩] at hNone
  apply rtnlLinkAdd_assigned
  · rw [hTake]
    exact hFree
  · rw [hTake]
    exact assignedName_of_not_mem hValid hPlain number
  · exact ⟨table.freshIndex_not_mem wish, hFree, hValid⟩

end LinkTable

/-- What is left open when nothing fails: the memory behind the received request, and
the index that the kernel picks for a new link, or the number for a template. -/
structure KernelChoice where
  after : List UInt8
  index : Nat
  number : Nat

def KernelChoice.faults (choice : KernelChoice) (kernel : LinkTable) : RequestFaults :=
  { noFaults with
    create := ⟨none, false, false, false, .accepted (kernel.freshIndex choice.index) choice.number⟩ }

/-- Further reasons of the kernel to refuse a change. -/
abbrev KernelRules := Link → LinkChange → Option Nat

/-- A flag that is set already is set again without any objection. -/
def KernelRules.refusal (rules : KernelRules) (link : Link) (change : LinkChange) : Option Nat :=
  if change = .state link.up then none else rules link change

namespace IpCommand

def name : IpCommand → List UInt8
  | .bitrate name _ | .state name _ => name

def change : IpCommand → LinkChange
  | .bitrate _ rate => .bitrate rate
  | .state _ up => .state up

/-- What `std::system` returns for the command, and the links afterwards: one change of
the named link, under the rules of the kernel. `ip` is taken to find the link of exactly
the name that it gets. -/
def run (rules : KernelRules) (kernel : LinkTable) (command : IpCommand) : Int × LinkTable :=
  match kernel.byName command.name with
  | none => (256, kernel)
  | some link =>
    match command.change.refusedOn link, rules.refusal link command.change with
    | none, none => (0, kernel.change link.index command.change)
    | _, _ => (512, kernel)

/-- A kernel without further rules accepts any change of a CAN link that is down. -/
theorem run_of_down {kernel : LinkTable} {command : IpCommand} {link : Link}
    (hLink : kernel.byName command.name = some link) (hKind : link.kind = .can)
    (hDown : link.up = false) :
    command.run (fun _ _ => none) kernel = (0, kernel.change link.index command.change) := by
  have hAccepted : command.change.refusedOn link = none := by
    cases command <;> simp [change, LinkChange.refusedOn, hKind, hDown]
  have hRule : KernelRules.refusal (fun _ _ => none) link command.change = none := by
    simp [KernelRules.refusal]
  simp only [run, hLink, hAccepted, hRule]

/-- A command changes no link but the one it names. -/
theorem changedAt_run (rules : KernelRules) (kernel : LinkTable) (command : IpCommand) :
    LinkTable.ChangedAt command.name kernel (command.run rules kernel).2 := by
  cases hLink : kernel.byName command.name with
  | none =>
      simp only [run, hLink]
      exact .refl kernel
  | some link =>
      cases hRefused : command.change.refusedOn link with
      | some code =>
          simp only [run, hLink, hRefused]
          exact .refl kernel
      | none =>
          cases hRefusal : rules.refusal link command.change with
          | some code =>
              simp only [run, hLink, hRefused, hRefusal]
              exact .refl kernel
          | none =>
              simp only [run, hLink, hRefused, hRefusal]
              exact .change hLink (.refl _)

/-- A command that returns 0 has found its link, and that takes the change. -/
theorem exists_of_run {rules : KernelRules} {kernel : LinkTable} {command : IpCommand}
    (h : (command.run rules kernel).1 = 0) :
    ∃ link, kernel.byName command.name = some link ∧ command.change.refusedOn link = none ∧
      (command.run rules kernel).2.byName command.name = some (command.change.apply link) := by
  cases hLink : kernel.byName command.name with
  | none => simp [run, hLink] at h
  | some link =>
      cases hRefused : command.change.refusedOn link with
      | some code => simp [run, hLink, hRefused] at h
      | none =>
          cases hRefusal : rules.refusal link command.change with
          | some code => simp [run, hLink, hRefused, hRefusal] at h
          | none =>
              refine ⟨link, rfl, hRefused, ?_⟩
              simp only [run, hLink, hRefused, hRefusal]
              exact LinkTable.byName_change_self hLink

end IpCommand

/-- `SIOCGIFINDEX`: the index of the link, or the text of `ENODEV`. -/
def lookUpIndex (kernel : LinkTable) (name : List UInt8) : Except (List UInt8) Nat :=
  match kernel.byName (ioctlName name) with
  | none => .error (ascii "No such device")
  | some link => .ok link.index

/-- The answers when the daemon is reachable and every kernel call succeeds. -/
def reachable (texts : ErrorTexts) :
    Transition.Handler ClientCall.Answer NetlinkManager KernelChoice
  | .makeClient, _, manager => (none, manager)
  | .sendRequest request, choice, manager =>
    let handled := manager.processRequest texts request choice.after (choice.faults manager.kernel)
    (.ok handled.1, handled.2)
  | .system command, _, manager =>
    let done := IpCommand.run (fun _ _ => none) manager.kernel command
    (done.1, { manager with kernel := done.2 })
  | .interfaceIndex name, _, manager => (lookUpIndex manager.kernel name, manager)

section Answers

open NetlinkManager

variable (texts : ErrorTexts) (choice : KernelChoice) (manager : NetlinkManager)

/-- The query tells whether the link is there. -/
theorem reachable_exists (data : List UInt8) :
    reachable texts (.sendRequest (.ofQuery .interfaceExists data)) choice manager =
      (.ok (.ofQuery 0
        (manager.kernel.byName ((CString.read data).take (ifNameSize - 1))).isSome false),
        manager.fresh) := by
  rw [← NetlinkRequest.name_ofQuery .interfaceExists data choice.after]
  rfl

/-- The creation leaves a link of the name, a new vcan link if there was none. -/
theorem reachable_create {data name : List UInt8} (hName : PlainName name)
    (hData : (CString.read data).take (ifNameSize - 1) = name) :
    ∃ response after,
      reachable texts (.sendRequest (.ofQuery .createVcanInterface data)) choice manager =
        (.ok response, after) ∧ response.result = 0 ∧
      (after.kernel = manager.kernel ∧ (manager.kernel.byName name).isSome ∨
        manager.kernel.byName name = none ∧ ∃ index,
          after.kernel.links = manager.kernel.links ++ [⟨index, name, .vcan, false, 0⟩]) := by
  have hField := NetlinkRequest.name_ofQuery .createVcanInterface data choice.after
  rw [hData] at hField
  have hOperation : RequestType.ofByte
      (NetlinkRequest.ofQuery .createVcanInterface data).operation = some .createVcanInterface :=
    RequestType.ofByte_toByte .createVcanInterface
  cases hLink : manager.kernel.byName name with
  | some link =>
      have hCreate : createVcanInterfaceIfNotExists texts manager.kernel name
          (choice.faults manager.kernel).create = (.ok (), manager.kernel) := by
        simp only [createVcanInterfaceIfNotExists, KernelChoice.faults, ioctlName_of_valid hName.valid,
          hLink, Option.isSome_some, ↓reduceIte]
      simp only [reachable, processRequest, hOperation, hField, hCreate]
      exact ⟨_, _, rfl, rfl, .inl ⟨rfl, rfl⟩⟩
  | none =>
      obtain ⟨after, hAdd, hLinks⟩ := LinkTable.rtnlLinkAdd_fresh hName.valid
        (hName.not_mem (by decide)) hLink choice.index choice.number
      have hCreate : createVcanInterfaceIfNotExists texts manager.kernel name
          (choice.faults manager.kernel).create = (.ok (), after) := by
        simp only [createVcanInterfaceIfNotExists, KernelChoice.faults, ioctlName_of_valid hName.valid,
          hLink, hAdd, Option.isSome_none, Bool.false_eq_true, Int.lt_irrefl, ↓reduceIte]
      simp only [reachable, processRequest, hOperation, hField, hCreate]
      exact ⟨_, _, rfl, rfl, .inr ⟨trivial, _, hLinks⟩⟩

section StateRequest

variable {view : StringView} {name : List UInt8}
  (hView : (CString.read view.data).take (ifNameSize - 1) = name) (up : Bool) (bitrate : UInt32)
  (after : List UInt8) (faults : RequestFaults)
include hView

theorem processRequest_stateRequest :
    manager.processRequest texts (NetlinkClient.stateRequest view up bitrate) after faults =
      manager.processSetInterfaceState texts (NetlinkClient.stateRequest view up bitrate) name faults := by
  rw [processRequest_setInterfaceState texts manager _ (RequestType.ofByte_toByte .setInterfaceState),
    NetlinkClient.name_stateRequest, hView]

/-- The ways through a request of the client. -/
theorem setOutcome_stateRequest :
    SetOutcome manager (NetlinkClient.stateRequest view up bitrate) name faults
      (manager.processRequest texts (NetlinkClient.stateRequest view up bitrate) after faults).1
      (manager.processRequest texts (NetlinkClient.stateRequest view up bitrate) after faults).2 := by
  rw [processRequest_stateRequest texts manager hView]
  exact setOutcome texts _ faults

end StateRequest

/-- Without the prefix there is no bitrate to be set, whatever it is. -/
theorem processRequest_setUp {view : StringView} (hPrefix : view.startsWith (ascii "can") = false)
    (bitrate : UInt32) (after : List UInt8) (faults : RequestFaults) :
    manager.processRequest texts (NetlinkClient.stateRequest view true bitrate) after faults =
      manager.setInterfaceStateLibnl texts ((CString.read view.data).take (ifNameSize - 1)) true
        faults.final := by
  have hPlain : ¬(NetlinkClient.stateRequest view true bitrate).setBitrate = true := by
    simp [NetlinkClient.setBitrate_stateRequest, hPrefix]
  rw [processRequest_stateRequest texts manager rfl, processSetInterfaceState,
    if_neg fun hBoth => hPlain hBoth.2]
  rfl

theorem reachable_setUp_eq {view : StringView} (hPrefix : view.startsWith (ascii "can") = false)
    (bitrate : UInt32) :
    reachable texts (.sendRequest (NetlinkClient.stateRequest view true bitrate)) choice manager =
      (.ok (manager.setInterfaceStateLibnl texts
          ((CString.read view.data).take (ifNameSize - 1)) true noFaults.final).1,
        (manager.setInterfaceStateLibnl texts
          ((CString.read view.data).take (ifNameSize - 1)) true noFaults.final).2) := by
  simp only [reachable, processRequest_setUp texts manager hPrefix]
  rfl

/-- A link of the name comes up, and no other link changes. -/
theorem reachable_setUp {view : StringView} {name : List UInt8} {link : Link} (bitrate : UInt32)
    (hData : (CString.read view.data).take (ifNameSize - 1) = name)
    (hPrefix : view.startsWith (ascii "can") = false)
    (hLink : manager.kernel.byName name = some link) :
    ∃ response after,
      reachable texts (.sendRequest (NetlinkClient.stateRequest view true bitrate)) choice manager =
        (.ok response, after) ∧ response.result = 0 ∧
      after.kernel.byName name = some { link with up := true } ∧
      ∀ other, other.name ≠ name → (other ∈ after.kernel.links ↔ other ∈ manager.kernel.links) := by
  have hState : StateOutcome manager name true noFaults.final _ _ :=
    stateOutcome texts true noFaults.final
  have hApplies : noFaults.final.Applies := by decide
  have hUp := hState.byName hLink
  rw [if_pos hApplies] at hUp
  rw [reachable_setUp_eq texts choice manager hPrefix, hData]
  exact ⟨_, _, rfl, hState.result_of_applies hLink hApplies, hUp,
    fun other hNe => hState.changedAt.mem_iff hNe⟩

end Answers
end HyCAN
