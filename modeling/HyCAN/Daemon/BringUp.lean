import HyCAN.Client.NetlinkClient
import HyCAN.Daemon.NetlinkManagerSteps

/-! What a client may conclude from the result 0 of a request to bring a link up or
down. The bitrate is the delicate part: client and daemon each decide by the name
whether there is one to be set. -/
namespace HyCAN.NetlinkManager

variable (texts : ErrorTexts) {manager : NetlinkManager} {name : List UInt8}

/-- A view with the prefix has it in the field as well. -/
theorem hasCanPrefix_name {view : StringView} (hPrefix : view.startsWith (ascii "can") = true)
    (up : Bool) (bitrate : UInt32) (after : List UInt8) :
    HasCanPrefix ((NetlinkClient.stateRequest view up bitrate).name after) := by
  rw [NetlinkClient.name_stateRequest, HasCanPrefix, List.isPrefixOf_iff_prefix]
  have hText : ascii "can" <+: view.text := List.isPrefixOf_iff_prefix.mp hPrefix
  have hData : ascii "can" <+: view.data := hText.trans (List.prefix_append _ _)
  have hRead : ascii "can" <+: CString.read view.data := CString.prefix_read hData (by decide)
  exact List.prefix_take_iff.mpr ⟨hRead, by decide⟩

/-- With the result 0, the named link exists and is in the requested state, a CAN
link whose name begins with `can` has the requested bitrate when it was brought
up, and all links of other names are as they were. -/
theorem bring_up_success (manager : NetlinkManager) (view : StringView) (up : Bool)
    (bitrate : UInt32) (after : List UInt8) (faults : RequestFaults) :
    let request := NetlinkClient.stateRequest view up bitrate
    let name := CString.read request.interfaceName.toList
    let done := manager.processRequest texts request after faults
    done.1.result = 0 →
      (∃ link, done.2.kernel.byName name = some link ∧ link.up = up ∧
        (up = true → link.kind = .can → view.startsWith (ascii "can") = true →
          link.bitrate = bitrate)) ∧
      ∀ other, other.name ≠ name → (other ∈ done.2.kernel.links ↔ other ∈ manager.kernel.links) := by
  intro request name done hResult
  have hName : request.name after = name := by
    rw [NetlinkClient.name_stateRequest, ← NetlinkClient.name_stateRequest view up bitrate [],
      NetlinkRequest.name, List.append_nil]
  have hBranch : done = manager.processSetInterfaceState texts request name faults := by
    rw [← hName]
    rfl
  have hSet : SetOutcome manager request name faults done.1 done.2 := by
    rw [hBranch]
    exact setOutcome texts request faults
  obtain ⟨link, hLink, hUp, hBitrate⟩ := hSet.success hResult
  refine ⟨⟨link, hLink, hUp, ?_⟩, fun other hNe => hSet.changedAt.mem_iff hNe⟩
  intro hRequested _ hPrefix
  apply hBitrate hRequested
  · exact NetlinkClient.setBitrate_stateRequest.mpr ⟨hPrefix, hRequested⟩
  · rw [← hName]
    exact hasCanPrefix_name hPrefix up bitrate after

/-- A CAN link brought up at another bitrate than it had. -/
def downCan0 : NetlinkManager where
  kernel := .single ⟨1, ascii "can0", .can, false, 500000⟩ (by decide +kernel)
  linkCache := []

theorem bring_up_success_can0 :
    let after := (downCan0.processRequest ⟨fun _ => [], fun _ => []⟩
      (NetlinkClient.stateRequest ⟨ascii "can0", [0]⟩ true 1000000) [] noFaults).2.kernel
    ∃ link, after.byName (CString.read (NetlinkRequest.nameField (ascii "can0" ++ [0])).toList) =
      some link ∧ link.up = true ∧
        (true = true → link.kind = .can → (ascii "can").isPrefixOf (ascii "can0") = true →
          link.bitrate = 1000000) :=
  (bring_up_success ⟨fun _ => [], fun _ => []⟩ downCan0 ⟨ascii "can0", [0]⟩ true 1000000 [] noFaults
    (by decide +kernel)).1

/-- The same link under a name that neither side takes for a CAN name. -/
def downMcp0 : NetlinkManager where
  kernel := .single ⟨1, ascii "mcp0", .can, false, 500000⟩ (by decide +kernel)
  linkCache := []

/-- Success is reported for the bitrate 1000000, and the link is up with 500000. -/
theorem bring_up_success_skips_bitrate :
    ¬∀ (texts : ErrorTexts) (manager : NetlinkManager) (view : StringView) (up : Bool)
        (bitrate : UInt32) (after : List UInt8) (faults : RequestFaults),
      let request := NetlinkClient.stateRequest view up bitrate
      let name := CString.read request.interfaceName.toList
      let done := manager.processRequest texts request after faults
      done.1.result = 0 →
        (∃ link, done.2.kernel.byName name = some link ∧ link.up = up ∧
          (up = true → link.kind = .can → link.bitrate = bitrate)) ∧
        ∀ other, other.name ≠ name →
          (other ∈ done.2.kernel.links ↔ other ∈ manager.kernel.links) := by
  intro hClaim
  obtain ⟨⟨link, hLink, _, hBitrate⟩, _⟩ := hClaim ⟨fun _ => [], fun _ => []⟩ downMcp0
    ⟨ascii "mcp0", [0]⟩ true 1000000 [] noFaults (by decide +kernel)
  have hAfter : (downMcp0.processRequest ⟨fun _ => [], fun _ => []⟩
      (NetlinkClient.stateRequest ⟨ascii "mcp0", [0]⟩ true 1000000) [] noFaults).2.kernel.byName
        (CString.read (NetlinkRequest.nameField (ascii "mcp0" ++ [0])).toList) =
      some ⟨1, ascii "mcp0", .can, true, 500000⟩ := by decide +kernel
  have hSame : link = ⟨1, ascii "mcp0", .can, true, 500000⟩ :=
    Option.some.inj (hLink.symm.trans hAfter)
  have hRate := hBitrate rfl (by rw [hSame])
  rw [hSame] at hRate
  exact absurd hRate (by decide)

end HyCAN.NetlinkManager
