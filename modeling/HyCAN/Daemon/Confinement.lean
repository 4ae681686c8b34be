import HyCAN.Daemon.NetlinkManagerSteps
import HyCAN.Transition.Machine

/-! Which links the requests of unprivileged clients can alter. The daemon handles
one request at a time, so a run is a sequence of requests, each with the failures
it meets. A link is foreign if it is neither a CAN nor a vcan link. -/
namespace HyCAN

/-- The two tables have the same foreign links, in the same configuration. -/
def SameForeign (before after : LinkTable) : Prop :=
  ∀ link, link.kind = .other → (link ∈ after.links ↔ link ∈ before.links)

theorem SameForeign.refl (table : LinkTable) : SameForeign table table :=
  fun _ _ => Iff.rfl

theorem SameForeign.congr {start before after : LinkTable} (h : SameForeign start before) :
    SameForeign start after ↔ SameForeign before after := by
  constructor
  · intro hAfter link hKind
    rw [hAfter link hKind, h link hKind]
  · intro hAfter link hKind
    rw [hAfter link hKind, h link hKind]

namespace LinkTable

/-- Where only the link of one name changes, it is that link that matters. -/
theorem ChangedAt.sameForeign_iff {name : List UInt8} {before after : LinkTable}
    (h : ChangedAt name before after) :
    SameForeign before after ↔
      ∀ link, before.byName name = some link → link.kind = .other → after.byName name = some link := by
  constructor
  · intro hSame link hLink hKind
    obtain ⟨hMem, hName⟩ := byName_eq_some_iff.mp hLink
    exact byName_eq_some_iff.mpr ⟨(hSame link hKind).mpr hMem, hName⟩
  · intro hKept other hOther
    by_cases hName : other.name = name
    · cases hBefore : before.byName name with
      | none => rw [h.eq_of_none hBefore]
      | some link =>
          obtain ⟨changed, hChanged, hKind⟩ := h.kind hBefore
          have hMemAfter : other ∈ after.links ↔ changed = other := by
            rw [← Option.some.injEq, ← hChanged, byName_eq_some_iff]
            simp [hName]
          have hMemBefore : other ∈ before.links ↔ link = other := by
            rw [← Option.some.injEq, ← hBefore, byName_eq_some_iff]
            simp [hName]
          rw [hMemAfter, hMemBefore]
          by_cases hForeign : link.kind = .other
          · have hSame := hKept link hBefore hForeign
            rw [hChanged] at hSame
            rw [Option.some.inj hSame]
          · have hLink : link ≠ other := fun hEq => hForeign (hEq ▸ hOther)
            have hAfter : changed ≠ other := fun hEq => hForeign (hKind ▸ hEq ▸ hOther)
            simp [hLink, hAfter]
    · exact h.mem_iff hName

theorem sameForeign_rtnlLinkAdd (table : LinkTable) (name : List UInt8) (outcome : AddOutcome) :
    SameForeign table (table.rtnlLinkAdd name outcome).2 := by
  intro other hOther
  rcases table.links_rtnlLinkAdd name outcome with hSame | ⟨link, hVcan, hAdded, _⟩
  · rw [hSame]
  · have hNe : other ≠ link := fun hEq => by simp [hEq, hVcan] at hOther
    simp [hAdded, hNe]

end LinkTable

namespace NetlinkManager

variable {manager : NetlinkManager} {name : List UInt8} {link : Link}

/-- When the flag of a foreign link is after the request what it was before. -/
def FlagKept (request : NetlinkRequest) (name : List UInt8) (faults : RequestFaults)
    (link : Link) : Prop :=
  if request.up = true ∧ request.setBitrate = true then
    faults.check ≠ .ok ∨
      if link.up then ¬faults.down.Applies ∨ (¬HasCanPrefix name ∧ faults.final.Applies)
      else HasCanPrefix name ∨ ¬faults.final.Applies
  else link.up = request.up ∨ ¬faults.final.Applies

/-- The request leaves a foreign link as it is exactly if it keeps its flag. -/
theorem SetOutcome.byName_iff {request : NetlinkRequest} {faults : RequestFaults}
    {response : NetlinkResponse} {after : NetlinkManager}
    (h : SetOutcome manager request name faults response after)
    (hLink : manager.kernel.byName name = some link) (hKind : link.kind = .other) :
    after.kernel.byName name = some link ↔ FlagKept request name faults link := by
  unfold FlagKept
  cases h with
  | plain hPlain hFinal =>
      rw [hFinal.byName hLink, if_neg hPlain, Option.some.injEq, with_up_eq_iff]
      by_cases hApplies : faults.final.Applies <;> simp [hApplies, eq_comm]
  | checkFailed hBitrate hCheck _ hKernel => simp [hBitrate, hCheck, hKernel, hLink]
  | downFailed hBitrate hCheck hFound hUp hDown hFailed =>
      rw [hLink, Option.some.injEq] at hFound
      subst hFound
      have hNot : ¬faults.down.Applies :=
        fun hApplies => hFailed ((hDown.result_iff hLink (by simp [hUp])).mpr hApplies)
      have hAfter := hDown.byName hLink
      rw [if_neg hNot, with_up_eq_iff.mpr rfl] at hAfter
      simp [hBitrate, hUp, hNot, hAfter]
  | bitrateFailed hBitrate hCheck hLowered hRate hFailed =>
      obtain ⟨hLow, hDown⟩ := hLowered.byName hLink
      obtain ⟨hSame, hSkipped⟩ := hRate.of_not_can hLow (by simp [hKind])
      have hPrefix : HasCanPrefix name := not_not.mp fun hNone => hFailed (hSkipped.mpr hNone)
      rw [hSame, hLow, Option.some.injEq, with_up_eq_iff]
      cases hUp : link.up with
      | true => simp [hBitrate, hCheck, hPrefix, hDown hUp]
      | false => simp [hBitrate, hPrefix]
  | finished hBitrate hCheck hLowered hRate hRated hFinal =>
      obtain ⟨hLow, hDown⟩ := hLowered.byName hLink
      obtain ⟨hSame, hSkipped⟩ := hRate.of_not_can hLow (by simp [hKind])
      have hPrefix : ¬HasCanPrefix name := hSkipped.mp hRated
      have hAfter : after.kernel.byName name =
          some { link with up := if faults.final.Applies then true else false } :=
        hFinal.byName (hSame ▸ hLow)
      rw [hAfter, Option.some.injEq, with_up_eq_iff]
      cases hUp : link.up with
      | true => by_cases hApplies : faults.final.Applies <;>
          simp [hBitrate, hCheck, hPrefix, hDown hUp, hApplies]
      | false => by_cases hApplies : faults.final.Applies <;>
          simp [hBitrate, hCheck, hPrefix, hApplies]

end NetlinkManager

/-- A request as the daemon handles it. -/
structure Handled where
  request : NetlinkRequest
  after : List UInt8
  faults : RequestFaults

/-- The daemon's requests on the kernel's links. -/
def daemonMachine (texts : ErrorTexts) : Transition.Machine NetlinkManager Handled where
  step manager handled :=
    some (manager.processRequest texts handled.request handled.after handled.faults).2

/-- If the request is for the state of a foreign link, its flag is kept. -/
def Confined (kernel : LinkTable) (handled : Handled) : Prop :=
  let name := handled.request.name handled.after
  RequestType.ofByte handled.request.operation = some .setInterfaceState →
    ∀ link, kernel.byName name = some link → link.kind = .other →
      NetlinkManager.FlagKept handled.request name handled.faults link

namespace NetlinkManager

theorem sameForeign_create (texts : ErrorTexts) (kernel : LinkTable) (name : List UInt8)
    (faults : CreateFaults) :
    SameForeign kernel (createVcanInterfaceIfNotExists texts kernel name faults).2 := by
  rcases createVcanInterfaceIfNotExists_links texts kernel name faults with hSame | hAdded
  · rw [hSame]
    exact .refl kernel
  · rw [hAdded]
    exact kernel.sameForeign_rtnlLinkAdd name faults.add

/-- One request alters no foreign link exactly if it is confined. -/
theorem processRequest_sameForeign_iff (texts : ErrorTexts) (manager : NetlinkManager)
    (handled : Handled) :
    SameForeign manager.kernel
        (manager.processRequest texts handled.request handled.after handled.faults).2.kernel ↔
      Confined manager.kernel handled := by
  unfold Confined processRequest
  cases hOperation : RequestType.ofByte handled.request.operation with
  | none => simp [SameForeign.refl]
  | some operation =>
      cases operation with
      | setInterfaceState =>
          have hSet : SetOutcome manager handled.request (handled.request.name handled.after)
              handled.faults _ _ := setOutcome texts handled.request handled.faults
          rw [hSet.changedAt.sameForeign_iff]
          constructor
          · intro hKept name _ link hLink hKind
            exact (hSet.byName_iff hLink hKind).mp (hKept link hLink hKind)
          · intro hKept link hLink hKind
            exact (hSet.byName_iff hLink hKind).mpr (hKept rfl link hLink hKind)
      | createVcanInterface =>
          have hCreate := sameForeign_create texts manager.kernel
            (handled.request.name handled.after) handled.faults.create
          generalize createVcanInterfaceIfNotExists texts manager.kernel
            (handled.request.name handled.after) handled.faults.create = created at hCreate ⊢
          obtain ⟨result, kernel⟩ := created
          cases result <;> simpa using hCreate
      | interfaceExists | interfaceIsUp => simp [SameForeign.refl]
      | checkInterfaceState | validateCanHardware | clientRegister => simp [SameForeign.refl]

end NetlinkManager

/-- The foreign links stay as they are for a whole run exactly if each of its
requests is confined. -/
theorem foreign_links_kept_iff (texts : ErrorTexts) (manager : NetlinkManager)
    (requests : List Handled) :
    (∀ after, (daemonMachine texts).Passes manager requests after →
        SameForeign manager.kernel after.kernel) ↔
      ∀ before handled after, (daemonMachine texts).Takes manager requests before handled after →
        Confined before.kernel handled := by
  apply Transition.Machine.passes_iff_takes
  · exact .refl manager.kernel
  · intro before handled after hTakes hSame
    have hStep : (before.processRequest texts handled.request handled.after handled.faults).2 = after :=
      Option.some.inj hTakes.step
    rw [hSame.congr, ← hStep]
    exact NetlinkManager.processRequest_sameForeign_iff texts before handled

/-- A host whose only link is its Ethernet interface. -/
def upEth0 : NetlinkManager where
  kernel := .single ⟨2, ascii "eth0", .other, true, 0⟩ (by decide +kernel)
  linkCache := []

/-- Any client can take the Ethernet interface down. -/
theorem foreign_link_taken_down :
    ¬∀ (texts : ErrorTexts) (manager : NetlinkManager) (requests : List Handled)
        (after : NetlinkManager), (daemonMachine texts).run manager requests = some after →
      SameForeign manager.kernel after.kernel := by
  intro hClaim
  have hSame := hClaim ⟨fun _ => [], fun _ => []⟩ upEth0
    [⟨.ofState (ascii "eth0") false false 0, [], noFaults⟩] _ rfl
  have hKept := hSame ⟨2, ascii "eth0", .other, true, 0⟩ rfl
  exact absurd hKept (by decide +kernel)

end HyCAN
