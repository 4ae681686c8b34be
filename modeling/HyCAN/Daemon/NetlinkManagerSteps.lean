import HyCAN.Daemon.NetlinkManager

/-! What the steps of `process_request` can do to the links: one relation for each
helper, with one constructor for each way through it. The cache is followed only
as far as the next lookup in it needs. -/
namespace HyCAN

/-- Every call before and including the change itself succeeds. -/
def StateFaults.Applies (faults : StateFaults) : Prop :=
  faults.refill = .ok ∧ faults.allocFails = false ∧ faults.refusal = none

instance (faults : StateFaults) : Decidable faults.Applies := inferInstanceAs (Decidable (_ ∧ _))

/-- The faults of a request in which nothing fails. -/
def noFaults : RequestFaults where
  check := .ok
  down := ⟨.ok, false, none, .ok⟩
  bitrate := ⟨false, false, none⟩
  final := ⟨.ok, false, none, .ok⟩
  create := ⟨none, false, false, false, .accepted 0 0⟩

namespace NetlinkManager

variable (texts : ErrorTexts) {manager : NetlinkManager} {name : List UInt8}

/-- The manager with its cache just filled. -/
def fresh (manager : NetlinkManager) : NetlinkManager :=
  { manager with linkCache := manager.kernel.links }

/-- Whatever link object the cache still has under the name is of the kernel's link
of that name. -/
def Recent (manager : NetlinkManager) (name : List UInt8) : Prop :=
  ∀ link, manager.cached name = some link → ∃ target, manager.kernel.byName name = some target ∧
    target.index = link.index ∧ target.kind = link.kind

theorem cached_fresh (manager : NetlinkManager) (name : List UInt8) :
    manager.fresh.cached name = manager.kernel.byName name := rfl

theorem recent_fresh (manager : NetlinkManager) (name : List UInt8) : manager.fresh.Recent name :=
  fun link hLink => ⟨link, hLink, rfl, rfl⟩

@[simp] theorem refill_kernel (fault : Refill) : (manager.refill fault).2.kernel = manager.kernel := by
  cases fault <;> rfl

/-- A refill, successful or not, leaves a cache that is still recent. -/
theorem Recent.refill (h : manager.Recent name) (fault : Refill) :
    (manager.refill fault).2.Recent name := by
  cases fault with
  | ok => exact recent_fresh manager name
  | refused => exact h
  | cutShort count =>
      intro link hLink
      have hMem : link ∈ manager.kernel.links.take count := List.mem_of_find?_eq_some hLink
      have hName : link.name = name := by simpa using List.find?_some hLink
      exact ⟨link, LinkTable.byName_eq_some_iff.mpr ⟨List.mem_of_mem_take hMem, hName⟩, rfl, rfl⟩

/-- Changing the link of that name does not change its index and its kind. -/
theorem Recent.change {link : Link} {c : LinkChange} (h : manager.Recent name)
    (hLink : manager.kernel.byName name = some link) :
    { manager with kernel := manager.kernel.change link.index c }.Recent name := by
  intro object hObject
  obtain ⟨target, hTarget, hIndex, hKind⟩ := h object hObject
  rw [hLink] at hTarget
  cases hTarget
  exact ⟨c.apply link, LinkTable.byName_change_self hLink, by simpa using hIndex, by simpa using hKind⟩

/-- The ways through `set_interface_state_libnl`. -/
inductive StateOutcome (manager : NetlinkManager) (name : List UInt8) (up : Bool)
    (faults : StateFaults) : NetlinkResponse → NetlinkManager → Prop where
  | refillFailed {response : NetlinkResponse} {after : NetlinkManager}
      (hRefill : faults.refill ≠ .ok) (hResult : response.result = -1)
      (hKernel : after.kernel = manager.kernel) : StateOutcome manager name up faults response after
  | notFound {response : NetlinkResponse} (hNone : manager.kernel.byName name = none)
      (hResult : response.result = -1) : StateOutcome manager name up faults response manager.fresh
  | already {response : NetlinkResponse} {link : Link} (hRefill : faults.refill = .ok)
      (hLink : manager.kernel.byName name = some link) (hUp : link.up = up)
      (hResult : response.result = 0) : StateOutcome manager name up faults response manager.fresh
  | allocFailed {response : NetlinkResponse} {link : Link}
      (hLink : manager.kernel.byName name = some link) (hUp : link.up ≠ up)
      (hAlloc : faults.allocFails = true) (hResult : response.result = -1) :
      StateOutcome manager name up faults response manager.fresh
  | refused {response : NetlinkResponse} {link : Link} {code : Nat}
      (hLink : manager.kernel.byName name = some link) (hUp : link.up ≠ up)
      (hRefusal : faults.refusal = some code) (hResult : response.result = -(code + 1)) :
      StateOutcome manager name up faults response manager.fresh
  | changed {response : NetlinkResponse} {link : Link}
      (hLink : manager.kernel.byName name = some link) (hUp : link.up ≠ up)
      (hApplies : faults.Applies) (hResult : response.result = 0) :
      StateOutcome manager name up faults response
        ({ manager.fresh with
          kernel := manager.kernel.change link.index (.state up) }.refill faults.refillAfter).2

theorem rtnlLinkChange_of_mem {table : LinkTable} {link target : Link} {c : LinkChange}
    (hTarget : target ∈ table.links) (hIndex : target.index = link.index) :
    table.rtnlLinkChange link c none = match c.refusedOn target with
      | some code => (-code, table)
      | none => (0, table.change link.index c) := by
  have hFind : table.byIndex link.index = some target := hIndex ▸ LinkTable.byIndex_of_mem hTarget
  cases hCode : c.refusedOn target <;> simp only [LinkTable.rtnlLinkChange, hFind, hCode]

theorem stateOutcome (up : Bool) (faults : StateFaults) :
    StateOutcome manager name up faults
      (manager.setInterfaceStateLibnl texts name up faults).1
      (manager.setInterfaceStateLibnl texts name up faults).2 := by
  unfold setInterfaceStateLibnl
  cases hRefill : faults.refill with
  | refused | cutShort count => exact .refillFailed (by simp [hRefill]) rfl rfl
  | ok =>
      simp only [refill]
      cases hLink : manager.kernel.byName name with
      | none =>
          have hCached : manager.fresh.cached name = none := hLink
          simp only [fresh] at hCached
          simp only [hCached]
          exact .notFound hLink rfl
      | some link =>
          have hCached : manager.fresh.cached name = some link := hLink
          have hMem := (LinkTable.byName_eq_some_iff.mp hLink).1
          simp only [fresh] at hCached
          simp only [hCached]
          by_cases hUp : link.up = up
          · simp only [hUp, ↓reduceIte]
            exact .already hRefill hLink hUp rfl
          · simp only [hUp, ↓reduceIte]
            cases hAlloc : faults.allocFails with
            | true => exact .allocFailed hLink hUp hAlloc rfl
            | false =>
                cases hRefusal : faults.refusal with
                | some code =>
                    have hNegative : (-((code : Int) + 1)) < 0 := by omega
                    simp only [LinkTable.rtnlLinkChange, hNegative, Bool.false_eq_true, ↓reduceIte]
                    exact .refused hLink hUp hRefusal rfl
                | none =>
                    simp only [rtnlLinkChange_of_mem hMem rfl, LinkChange.refusedOn,
                      Bool.false_eq_true, Int.lt_irrefl, ↓reduceIte]
                    exact .changed hLink hUp ⟨hRefill, hAlloc, hRefusal⟩ rfl

/-- The test for a CAN interface, made on the name alone. -/
def HasCanPrefix (name : List UInt8) : Prop :=
  (ascii "can").isPrefixOf name = true

instance (name : List UInt8) : Decidable (HasCanPrefix name) := inferInstanceAs (Decidable (_ = true))

/-- The ways through `set_can_bitrate_libnl`. -/
inductive BitrateOutcome (manager : NetlinkManager) (name : List UInt8) (rate : UInt32) :
    NetlinkResponse → NetlinkManager → Prop where
  | skipped {response : NetlinkResponse} (hPrefix : ¬HasCanPrefix name)
      (hResult : response.result = 0) : BitrateOutcome manager name rate response manager
  | failed {response : NetlinkResponse} (hPrefix : HasCanPrefix name)
      (hResult : response.result < 0) : BitrateOutcome manager name rate response manager
  | changed {response : NetlinkResponse} {link : Link} (hPrefix : HasCanPrefix name)
      (hLink : manager.kernel.byName name = some link) (hKind : link.kind = .can)
      (hDown : link.up = false) (hResult : response.result = 0) :
      BitrateOutcome manager name rate response
        { manager with kernel := manager.kernel.change link.index (.bitrate rate) }

/-- The kernel's answer to a bitrate request made with a recent link object. -/
theorem rtnlLinkChange_bitrate {link target : Link} (rate : UInt32)
    (hTarget : manager.kernel.byName name = some target) (hIndex : target.index = link.index)
    (hKind : target.kind = .can) (refusal : Option Nat) :
    (∃ code : Int, code < 0 ∧
        manager.kernel.rtnlLinkChange link (.bitrate rate) refusal = (code, manager.kernel)) ∨
      (target.up = false ∧ manager.kernel.rtnlLinkChange link (.bitrate rate) refusal =
        (0, manager.kernel.change target.index (.bitrate rate))) := by
  have hMem := (LinkTable.byName_eq_some_iff.mp hTarget).1
  cases refusal with
  | some code => exact .inl ⟨-((code : Int) + 1), by omega, rfl⟩
  | none =>
      rw [rtnlLinkChange_of_mem hMem hIndex]
      cases hUp : target.up with
      | true => exact .inl ⟨-25, by omega, by simp [LinkChange.refusedOn, hKind, hUp]⟩
      | false => exact .inr ⟨rfl, by simp [LinkChange.refusedOn, hKind, hUp, hIndex]⟩

theorem bitrateOutcome (hRecent : manager.Recent name) (rate : UInt32) (faults : BitrateFaults) :
    BitrateOutcome manager name rate
      (manager.setCanBitrateLibnl texts name rate faults).1
      (manager.setCanBitrateLibnl texts name rate faults).2 := by
  unfold setCanBitrateLibnl
  by_cases hPrefix : HasCanPrefix name
  · simp only [show (ascii "can").isPrefixOf name = true from hPrefix, not_true_eq_false, ↓reduceIte]
    cases hCached : manager.cached name with
    | none => exact .failed hPrefix (by simp)
    | some link =>
        obtain ⟨target, hTarget, hIndex, hKind⟩ := hRecent link hCached
        cases hAlloc : faults.allocFails with
        | true => exact .failed hPrefix (by simp)
        | false =>
            by_cases hCan : link.kind = .can
            · simp only [hCan, Bool.false_eq_true, ↓reduceIte]
              cases hType : faults.typeFails with
              | true => exact .failed hPrefix (by simp)
              | false =>
                  rcases rtnlLinkChange_bitrate rate hTarget hIndex (hKind.trans hCan)
                    faults.refusal with ⟨code, hNegative, hChange⟩ | ⟨hDown, hChange⟩
                  · simp only [hChange, hNegative, Bool.false_eq_true, ↓reduceIte]
                    exact .failed hPrefix (by simpa using hNegative)
                  · simp only [hChange, Bool.false_eq_true, Int.lt_irrefl, ↓reduceIte]
                    exact .changed hPrefix hTarget (hKind.trans hCan) hDown rfl
            · simp only [hCan, Bool.false_eq_true, ↓reduceIte]
              exact .failed hPrefix (by simp)
  · simp only [show ¬(ascii "can").isPrefixOf name = true from hPrefix]
    exact .skipped hPrefix rfl

theorem StateOutcome.recent {up : Bool} {faults : StateFaults} {response : NetlinkResponse}
    {after : NetlinkManager} (h : StateOutcome manager name up faults response after)
    (hResult : response.result = 0) : after.Recent name := by
  cases h with
  | refillFailed _ hFailed => simp [hResult] at hFailed
  | notFound | already | allocFailed | refused => exact recent_fresh manager name
  | changed hLink => exact ((recent_fresh manager name).change hLink).refill _

/-- What comes before the bitrate: a link that is up is taken down first. -/
inductive Lowered (manager : NetlinkManager) (name : List UInt8) (faults : StateFaults) :
    NetlinkManager → Prop where
  | down {link : Link} {response : NetlinkResponse} {after : NetlinkManager}
      (hLink : manager.kernel.byName name = some link) (hUp : link.up = true)
      (hDown : StateOutcome manager.fresh name false faults response after)
      (hResult : response.result = 0) : Lowered manager name faults after
  | alreadyDown (hDown : ∀ link, manager.kernel.byName name = some link → link.up = false) :
      Lowered manager name faults manager.fresh

theorem Lowered.recent {faults : StateFaults} {after : NetlinkManager}
    (h : Lowered manager name faults after) : after.Recent name := by
  cases h with
  | down _ _ hDown hResult => exact hDown.recent hResult
  | alreadyDown => exact recent_fresh manager name

/-- The ways through the branch of `process_request` for `SET_INTERFACE_STATE`. -/
inductive SetOutcome (manager : NetlinkManager) (request : NetlinkRequest) (name : List UInt8)
    (faults : RequestFaults) : NetlinkResponse → NetlinkManager → Prop where
  | plain {response : NetlinkResponse} {after : NetlinkManager}
      (hPlain : ¬(request.up = true ∧ request.setBitrate = true))
      (hFinal : StateOutcome manager name request.up faults.final response after) :
      SetOutcome manager request name faults response after
  | checkFailed {response : NetlinkResponse} {after : NetlinkManager}
      (hBitrate : request.up = true ∧ request.setBitrate = true) (hCheck : faults.check ≠ .ok)
      (hResult : response.result = -1) (hKernel : after.kernel = manager.kernel) :
      SetOutcome manager request name faults response after
  | downFailed {response downResponse : NetlinkResponse} {after : NetlinkManager} {link : Link}
      (hBitrate : request.up = true ∧ request.setBitrate = true) (hCheck : faults.check = .ok)
      (hLink : manager.kernel.byName name = some link) (hUp : link.up = true)
      (hDown : StateOutcome manager.fresh name false faults.down downResponse after)
      (hFailed : downResponse.result ≠ 0) (hResult : response.result = downResponse.result) :
      SetOutcome manager request name faults response after
  | bitrateFailed {response : NetlinkResponse} {lowered after : NetlinkManager}
      (hBitrate : request.up = true ∧ request.setBitrate = true) (hCheck : faults.check = .ok)
      (hLowered : Lowered manager name faults.down lowered)
      (hRate : BitrateOutcome lowered name request.bitrate response after)
      (hFailed : response.result ≠ 0) : SetOutcome manager request name faults response after
  | finished {response bitrateResponse : NetlinkResponse} {lowered rated after : NetlinkManager}
      (hBitrate : request.up = true ∧ request.setBitrate = true) (hCheck : faults.check = .ok)
      (hLowered : Lowered manager name faults.down lowered)
      (hRate : BitrateOutcome lowered name request.bitrate bitrateResponse rated)
      (hRated : bitrateResponse.result = 0)
      (hFinal : StateOutcome rated name true faults.final response after) :
      SetOutcome manager request name faults response after

/-- From the lowered link on: the bitrate, and then the final state. -/
theorem setOutcome_of_lowered {request : NetlinkRequest} {faults : RequestFaults}
    {lowered : NetlinkManager} (hBitrate : request.up = true ∧ request.setBitrate = true)
    (hCheck : faults.check = .ok) (hLowered : Lowered manager name faults.down lowered) :
    SetOutcome manager request name faults
      (lowered.setBitrateThenState texts request name faults).1
      (lowered.setBitrateThenState texts request name faults).2 := by
  have hRate := bitrateOutcome texts hLowered.recent request.bitrate faults.bitrate
  unfold setBitrateThenState
  by_cases hRated : (lowered.setCanBitrateLibnl texts name request.bitrate faults.bitrate).1.result = 0
  · simp only [hRated, ne_eq, not_true_eq_false, ↓reduceIte, hBitrate.1]
    exact .finished hBitrate hCheck hLowered hRate hRated (stateOutcome texts true faults.final)
  · simp only [hRated, ne_eq, not_false_eq_true, ↓reduceIte]
    exact .bitrateFailed hBitrate hCheck hLowered hRate hRated

/-- The check, when it succeeds, reports the state of the link in the kernel. -/
theorem checkInterfaceIsUp_ok (manager : NetlinkManager) (name : List UInt8) :
    manager.checkInterfaceIsUp name .ok =
      (match manager.kernel.byName name with
        | none => .ofQuery 0 false false
        | some link => .ofQuery 0 true link.up, manager.fresh) := by
  have hCached := cached_fresh manager name
  simp only [fresh] at hCached
  simp only [checkInterfaceIsUp, refill, hCached, fresh]
  cases manager.kernel.byName name <;> rfl

@[simp] theorem checkInterfaceExists_kernel (manager : NetlinkManager) (name : List UInt8)
    (fault : Refill) : (manager.checkInterfaceExists name fault).2.kernel = manager.kernel := by
  cases fault <;> rfl

@[simp] theorem checkInterfaceIsUp_kernel (manager : NetlinkManager) (name : List UInt8)
    (fault : Refill) : (manager.checkInterfaceIsUp name fault).2.kernel = manager.kernel := by
  cases fault with
  | ok =>
      rw [checkInterfaceIsUp_ok]
      rfl
  | refused | cutShort count => rfl

/-- A creation that gets as far as the kernel is one `rtnl_link_add`. -/
theorem createVcanInterfaceIfNotExists_links (kernel : LinkTable) (name : List UInt8)
    (faults : CreateFaults) :
    (createVcanInterfaceIfNotExists texts kernel name faults).2 = kernel ∨
      (createVcanInterfaceIfNotExists texts kernel name faults).2 =
        (kernel.rtnlLinkAdd name faults.add).2 := by
  unfold createVcanInterfaceIfNotExists
  cases faults.probe with
  | some errno => exact .inl rfl
  | none =>
      generalize kernel.rtnlLinkAdd name faults.add = added
      obtain ⟨result, after⟩ := added
      dsimp only
      split_ifs <;> simp

theorem setOutcome (request : NetlinkRequest) (faults : RequestFaults) :
    SetOutcome manager request name faults
      (manager.processSetInterfaceState texts request name faults).1
      (manager.processSetInterfaceState texts request name faults).2 := by
  unfold processSetInterfaceState
  by_cases hBitrate : request.up = true ∧ request.setBitrate = true
  · rw [if_pos hBitrate]
    cases hCheck : faults.check with
    | refused | cutShort count => exact .checkFailed hBitrate (by simp [hCheck]) rfl rfl
    | ok =>
        rw [checkInterfaceIsUp_ok]
        cases hLink : manager.kernel.byName name with
        | none => exact setOutcome_of_lowered texts hBitrate hCheck (.alreadyDown (by simp [hLink]))
        | some link =>
            cases hUp : link.up with
            | false =>
                simp only [hUp]
                exact setOutcome_of_lowered texts hBitrate hCheck (.alreadyDown (by simp [hLink, hUp]))
            | true =>
                have hDown : StateOutcome manager.fresh name false faults.down _ _ :=
                  stateOutcome texts false faults.down
                simp only [hUp, lowerBeforeBitrate, NetlinkResponse.ofQuery_result,
                  NetlinkResponse.ofQuery_isUp, ne_eq, not_true_eq_false, ↓reduceIte]
                by_cases hLowered : (manager.fresh.setInterfaceStateLibnl texts name false
                    faults.down).1.result = 0
                · simp only [hLowered, not_true_eq_false, ↓reduceIte]
                  exact setOutcome_of_lowered texts hBitrate hCheck (.down hLink hUp hDown hLowered)
                · simp only [hLowered, not_false_eq_true, ↓reduceIte]
                  exact .downFailed hBitrate hCheck hLink hUp hDown hLowered rfl
  · rw [if_neg hBitrate]
    exact .plain hBitrate (stateOutcome texts request.up faults.final)

/-- A link that is down needs no preparation. -/
theorem processSetInterfaceState_of_down {request : NetlinkRequest} {faults : RequestFaults} {link : Link}
    (hBitrate : request.up = true ∧ request.setBitrate = true) (hCheck : faults.check = .ok)
    (hLink : manager.kernel.byName name = some link) (hDown : link.up = false) :
    manager.processSetInterfaceState texts request name faults =
      manager.fresh.setBitrateThenState texts request name faults := by
  simp [processSetInterfaceState, hBitrate, hCheck, checkInterfaceIsUp_ok, hLink, hDown,
    lowerBeforeBitrate]

/-- The bitrate of a CAN link that is down is set if nothing fails. -/
theorem setCanBitrateLibnl_of_down {link : Link} (hPrefix : HasCanPrefix name)
    (hLink : manager.kernel.byName name = some link) (hKind : link.kind = .can) (hDown : link.up = false)
    (rate : UInt32) :
    manager.fresh.setCanBitrateLibnl texts name rate ⟨false, false, none⟩ =
      (.ofMessage 0 (ascii "CAN bitrate set successfully"),
        { manager.fresh with kernel := manager.kernel.change link.index (.bitrate rate) }) := by
  have hStart : (ascii "can").isPrefixOf name = true := hPrefix
  have hCached : manager.fresh.cached name = some link := hLink
  have hAccepted : (LinkChange.bitrate rate).refusedOn link = none := by
    simp [LinkChange.refusedOn, hKind, hDown]
  have hChange : manager.fresh.kernel.rtnlLinkChange link (.bitrate rate) none =
      (0, manager.kernel.change link.index (.bitrate rate)) := by
    have hMem := (LinkTable.byName_eq_some_iff.mp hLink).1
    rw [show manager.fresh.kernel = manager.kernel from rfl, rtnlLinkChange_of_mem hMem rfl, hAccepted]
  simp only [setCanBitrateLibnl, hStart, hCached, hKind, hChange, not_true_eq_false,
    Bool.false_eq_true, Int.lt_irrefl, ↓reduceIte]

theorem processRequest_setInterfaceState (manager : NetlinkManager) (request : NetlinkRequest)
    (hOperation : RequestType.ofByte request.operation = some .setInterfaceState)
    (memory : List UInt8) (faults : RequestFaults) :
    manager.processRequest texts request memory faults =
      manager.processSetInterfaceState texts request (request.name memory) faults := by
  simp only [processRequest, hOperation]

theorem setOutcome_processRequest (manager : NetlinkManager) (request : NetlinkRequest)
    (hOperation : RequestType.ofByte request.operation = some .setInterfaceState)
    (memory : List UInt8) (faults : RequestFaults) :
    SetOutcome manager request (request.name memory) faults
      (manager.processRequest texts request memory faults).1
      (manager.processRequest texts request memory faults).2 := by
  rw [processRequest_setInterfaceState texts manager request hOperation]
  exact setOutcome texts request faults

section Changes

variable {up : Bool} {rate : UInt32} {response : NetlinkResponse} {after : NetlinkManager}

theorem StateOutcome.changedAt {faults : StateFaults}
    (h : StateOutcome manager name up faults response after) :
    LinkTable.ChangedAt name manager.kernel after.kernel := by
  cases h with
  | refillFailed _ _ hKernel => exact hKernel ▸ .refl _
  | notFound | already | allocFailed | refused => exact .refl _
  | changed hLink =>
      rw [refill_kernel]
      exact .change hLink (.refl _)

theorem BitrateOutcome.changedAt (h : BitrateOutcome manager name rate response after) :
    LinkTable.ChangedAt name manager.kernel after.kernel := by
  cases h with
  | skipped | failed => exact .refl _
  | changed _ hLink => exact .change hLink (.refl _)

theorem Lowered.changedAt {faults : StateFaults} (h : Lowered manager name faults after) :
    LinkTable.ChangedAt name manager.kernel after.kernel := by
  cases h with
  | down _ _ hDown => exact hDown.changedAt
  | alreadyDown => exact .refl _

/-- Whatever happens, only the link of the request's name is touched. -/
theorem SetOutcome.changedAt {request : NetlinkRequest} {faults : RequestFaults}
    (h : SetOutcome manager request name faults response after) :
    LinkTable.ChangedAt name manager.kernel after.kernel := by
  cases h with
  | plain _ hFinal => exact hFinal.changedAt
  | checkFailed _ _ _ hKernel => exact hKernel ▸ .refl _
  | downFailed _ _ _ _ hDown => exact hDown.changedAt
  | bitrateFailed _ _ hLowered hRate => exact hLowered.changedAt.trans hRate.changedAt
  | finished _ _ hLowered hRate _ hFinal =>
      exact (hLowered.changedAt.trans hRate.changedAt).trans hFinal.changedAt

/-- A state change that reports success leaves the link in that state, with the
bitrate that it had. -/
theorem StateOutcome.success {faults : StateFaults}
    (h : StateOutcome manager name up faults response after) (hResult : response.result = 0) :
    ∃ link, manager.kernel.byName name = some link ∧
      after.kernel.byName name = some { link with up } := by
  cases h with
  | refillFailed _ hFailed | notFound _ hFailed | allocFailed _ _ _ hFailed =>
      simp [hResult] at hFailed
  | @refused _ code _ _ _ hFailed =>
      rw [hResult] at hFailed
      omega
  | already _ hLink hUp => exact ⟨_, hLink, by rw [← hUp]; exact hLink⟩
  | changed hLink =>
      refine ⟨_, hLink, ?_⟩
      rw [refill_kernel]
      exact LinkTable.byName_change_self hLink

end Changes

/-- The bitrate that a successful request with the prefix leaves on a CAN link. -/
theorem BitrateOutcome.success {rate : UInt32} {response : NetlinkResponse} {after : NetlinkManager}
    (h : BitrateOutcome manager name rate response after) (hPrefix : HasCanPrefix name)
    (hResult : response.result = 0) :
    ∃ link, after.kernel.byName name = some link ∧ link.bitrate = rate := by
  cases h with
  | skipped hNone => exact absurd hPrefix hNone
  | failed _ hFailed => omega
  | changed _ hLink => exact ⟨_, LinkTable.byName_change_self hLink, rfl⟩

/-- The link that a successful request leaves. -/
theorem SetOutcome.success {request : NetlinkRequest} {faults : RequestFaults}
    {response : NetlinkResponse} {after : NetlinkManager}
    (h : SetOutcome manager request name faults response after) (hResult : response.result = 0) :
    ∃ link, after.kernel.byName name = some link ∧ link.up = request.up ∧
      (request.up = true → request.setBitrate = true → HasCanPrefix name →
        link.bitrate = request.bitrate) := by
  cases h with
  | plain hPlain hFinal =>
      obtain ⟨link, _, hAfter⟩ := hFinal.success hResult
      exact ⟨_, hAfter, rfl, fun hUp hRate => absurd ⟨hUp, hRate⟩ hPlain⟩
  | checkFailed _ _ hFailed => simp [hResult] at hFailed
  | downFailed _ _ _ _ _ hFailed hSame => exact absurd (hSame ▸ hResult) hFailed
  | bitrateFailed _ _ _ _ hFailed => exact absurd hResult hFailed
  | finished hBitrate _ _ hRate hRated hFinal =>
      obtain ⟨link, hBefore, hAfter⟩ := hFinal.success hResult
      refine ⟨_, hAfter, hBitrate.1.symm, ?_⟩
      intro _ _ hPrefix
      obtain ⟨rated, hRatedLink, hBitrate⟩ := hRate.success hPrefix hRated
      rw [hBefore] at hRatedLink
      cases hRatedLink
      exact hBitrate

section State

variable {link : Link} {up : Bool} {faults : StateFaults} {response : NetlinkResponse}
  {after : NetlinkManager}

theorem with_up_eq_iff : { link with up } = link ↔ up = link.up := by
  cases link
  simp

/-- A link that is in the requested state already is left alone. -/
theorem StateOutcome.kernel_of_already (h : StateOutcome manager name up faults response after)
    (hLink : manager.kernel.byName name = some link) (hUp : link.up = up) :
    after.kernel = manager.kernel := by
  cases h with
  | refillFailed _ _ hKernel => exact hKernel
  | notFound | already | allocFailed | refused => rfl
  | changed hFound hNe =>
      rw [hLink, Option.some.injEq] at hFound
      exact absurd (hFound ▸ hUp) hNe

/-- Otherwise the change is made and reported, or a call before it fails. -/
theorem StateOutcome.applies_or (h : StateOutcome manager name up faults response after)
    (hLink : manager.kernel.byName name = some link) (hUp : link.up ≠ up) :
    (faults.Applies ∧ response.result = 0 ∧
        after.kernel = manager.kernel.change link.index (.state up)) ∨
      (¬faults.Applies ∧ response.result ≠ 0 ∧ after.kernel = manager.kernel) := by
  cases h with
  | refillFailed hRefill hResult hKernel =>
      exact .inr ⟨fun hApplies => hRefill hApplies.1, by omega, hKernel⟩
  | notFound hNone => simp [hLink] at hNone
  | already _ hFound hSame =>
      rw [hLink, Option.some.injEq] at hFound
      exact absurd (hFound ▸ hSame) hUp
  | allocFailed _ _ hAlloc hResult =>
      exact .inr ⟨fun hApplies => by simp [hApplies.2.1] at hAlloc, by omega, rfl⟩
  | refused _ _ hRefusal hResult =>
      exact .inr ⟨fun hApplies => by simp [hApplies.2.2] at hRefusal, by omega, rfl⟩
  | changed hFound _ hApplies hResult =>
      rw [hLink, Option.some.injEq] at hFound
      exact .inl ⟨hApplies, hResult, by rw [refill_kernel, hFound]⟩

/-- A state change on a known link fails or does what it is asked to. -/
theorem StateOutcome.byName (h : StateOutcome manager name up faults response after)
    (hLink : manager.kernel.byName name = some link) :
    after.kernel.byName name = some { link with up := if faults.Applies then up else link.up } := by
  by_cases hUp : link.up = up
  · rw [h.kernel_of_already hLink hUp, hLink, hUp, ite_self, with_up_eq_iff.mpr hUp.symm]
  · rcases h.applies_or hLink hUp with ⟨hApplies, _, hKernel⟩ | ⟨hNot, _, hKernel⟩
    · rw [hKernel, if_pos hApplies]
      exact LinkTable.byName_change_self hLink
    · rw [hKernel, hLink, if_neg hNot]

/-- If nothing fails, a known link comes to be in the state. -/
theorem StateOutcome.result_of_applies (h : StateOutcome manager name up faults response after)
    (hLink : manager.kernel.byName name = some link) (hApplies : faults.Applies) :
    response.result = 0 := by
  by_cases hUp : link.up = up
  · cases h with
    | refillFailed hRefill => exact absurd hApplies.1 hRefill
    | notFound hNone => simp [hLink] at hNone
    | allocFailed _ _ hAlloc => simp [hApplies.2.1] at hAlloc
    | refused _ _ hRefusal => simp [hApplies.2.2] at hRefusal
    | already _ _ _ hResult | changed _ _ _ hResult => exact hResult
  · rcases h.applies_or hLink hUp with ⟨_, hResult, _⟩ | ⟨hNot, _, _⟩
    · exact hResult
    · exact absurd hApplies hNot

/-- A state change that is none already succeeds only if it is made. -/
theorem StateOutcome.result_iff (h : StateOutcome manager name up faults response after)
    (hLink : manager.kernel.byName name = some link) (hUp : link.up ≠ up) :
    response.result = 0 ↔ faults.Applies := by
  rcases h.applies_or hLink hUp with ⟨hApplies, hResult, _⟩ | ⟨hNot, hResult, _⟩
  · exact iff_of_true hResult hApplies
  · exact iff_of_false hResult hNot

/-- The bitrate step touches no link but a CAN link, and on any other it goes on only
without the prefix. -/
theorem BitrateOutcome.of_not_can {rate : UInt32} (h : BitrateOutcome manager name rate response after)
    (hLink : manager.kernel.byName name = some link) (hKind : link.kind ≠ .can) :
    after = manager ∧ (response.result = 0 ↔ ¬HasCanPrefix name) := by
  cases h with
  | skipped hPrefix hResult => simp [hPrefix, hResult]
  | failed hPrefix hResult =>
      have hFailed : response.result ≠ 0 := by omega
      simp [hPrefix, hFailed]
  | changed _ hFound hCan =>
      rw [hLink, Option.some.injEq] at hFound
      exact absurd (hFound ▸ hCan) hKind

/-- The link is down before its bitrate is set. -/
theorem Lowered.byName {faults : StateFaults} {after : NetlinkManager}
    (h : Lowered manager name faults after) (hLink : manager.kernel.byName name = some link) :
    after.kernel.byName name = some { link with up := false } ∧ (link.up = true → faults.Applies) := by
  cases h with
  | down hFound hUp hDown hResult =>
      rw [hLink, Option.some.injEq] at hFound
      subst hFound
      have hApplies := (hDown.result_iff hLink (by simp [hUp])).mp hResult
      have hAfter := hDown.byName hLink
      rw [if_pos hApplies] at hAfter
      exact ⟨hAfter, fun _ => hApplies⟩
  | alreadyDown hDown =>
      have hUp := hDown link hLink
      have hSame : { link with up := false } = link := with_up_eq_iff.mpr hUp.symm
      rw [hSame]
      exact ⟨hLink, by simp [hUp]⟩

/-- The bitrate step leaves the flag alone. -/
theorem BitrateOutcome.keeps_up {rate : UInt32} (h : BitrateOutcome manager name rate response after)
    (hLink : manager.kernel.byName name = some link) :
    ∃ rated, after.kernel.byName name = some rated ∧ rated.up = link.up := by
  cases h with
  | skipped | failed => exact ⟨link, hLink, rfl⟩
  | changed _ hFound =>
      rw [hLink, Option.some.injEq] at hFound
      subst hFound
      exact ⟨_, LinkTable.byName_change_self hLink, rfl⟩

end State

section Preparation

variable {link : Link} {request : NetlinkRequest} {faults : RequestFaults} {response : NetlinkResponse}
  {after : NetlinkManager}

/-- A request that has taken the link down leaves it down, unless it goes through. -/
theorem SetOutcome.low_or_finished (h : SetOutcome manager request name faults response after)
    (hBitrate : request.up = true ∧ request.setBitrate = true) (hCheck : faults.check = .ok)
    (hLink : manager.kernel.byName name = some link) (hUp : link.up = true)
    (hApplies : faults.down.Applies) :
    (∃ left, after.kernel.byName name = some left ∧ left.up = false) ∨
      faults.final.Applies ∧ response.result = 0 := by
  cases h with
  | plain hPlain => exact absurd hBitrate hPlain
  | checkFailed _ hNot => exact absurd hCheck hNot
  | downFailed _ _ hFound _ hDown hDownFailed =>
      rw [hLink, Option.some.injEq] at hFound
      exact absurd ((hDown.result_iff hLink (by simp [hUp])).mpr hApplies) hDownFailed
  | bitrateFailed _ _ hLowered hRate => exact .inl (hRate.keeps_up (hLowered.byName hLink).1)
  | finished _ _ hLowered hRate _ hFinal =>
      obtain ⟨rated, hRated, hLow⟩ := hRate.keeps_up (hLowered.byName hLink).1
      rcases hFinal.applies_or hRated (by simp [hLow]) with ⟨hFinalApplies, hResult, _⟩ | ⟨_, _, hKernel⟩
      · exact .inr ⟨hFinalApplies, hResult⟩
      · exact .inl ⟨rated, hKernel ▸ hRated, hLow⟩

/-- So a request that then fails leaves it down. -/
theorem SetOutcome.low_of_failed (h : SetOutcome manager request name faults response after)
    (hBitrate : request.up = true ∧ request.setBitrate = true) (hCheck : faults.check = .ok)
    (hLink : manager.kernel.byName name = some link) (hUp : link.up = true)
    (hApplies : faults.down.Applies) (hFailed : response.result ≠ 0) :
    ∃ left, after.kernel.byName name = some left ∧ left.up = false :=
  (h.low_or_finished hBitrate hCheck hLink hUp hApplies).resolve_right fun hDone => hFailed hDone.2

/-- One that cannot take the link down fails, and leaves everything as it was. -/
theorem SetOutcome.kept_of_refused (h : SetOutcome manager request name faults response after)
    (hBitrate : request.up = true ∧ request.setBitrate = true) (hCheck : faults.check = .ok)
    (hLink : manager.kernel.byName name = some link) (hUp : link.up = true)
    (hNot : ¬faults.down.Applies) : response.result ≠ 0 ∧ after.kernel = manager.kernel := by
  cases h with
  | plain hPlain => exact absurd hBitrate hPlain
  | checkFailed _ hCheckFailed => exact absurd hCheck hCheckFailed
  | downFailed _ _ _ _ hDown hDownFailed hResult =>
      rcases hDown.applies_or hLink (by simp [hUp]) with ⟨hApplies, _, _⟩ | ⟨_, _, hKernel⟩
      · exact absurd hApplies hNot
      · exact ⟨hResult ▸ hDownFailed, hKernel⟩
  | bitrateFailed _ _ hLowered | finished _ _ hLowered =>
      exact absurd ((hLowered.byName hLink).2 hUp) hNot

/-- A request for a bitrate fails on a link that is no CAN link but has the prefix. -/
theorem SetOutcome.failed_of_not_can (h : SetOutcome manager request name faults response after)
    (hBitrate : request.up = true ∧ request.setBitrate = true) (hPrefix : HasCanPrefix name)
    (hLink : manager.kernel.byName name = some link) (hKind : link.kind ≠ .can) :
    response.result ≠ 0 := by
  cases h with
  | plain hPlain => exact absurd hBitrate hPlain
  | checkFailed _ _ hResult => omega
  | downFailed _ _ _ _ _ hFailed hSame => exact hSame ▸ hFailed
  | bitrateFailed _ _ _ _ hFailed => exact hFailed
  | finished _ _ hLowered hRate hRated =>
      have hLow := (hLowered.byName hLink).1
      exact absurd hPrefix (((hRate.of_not_can hLow hKind).2).mp hRated)

/-- Such a request leaves a link alone that is down. -/
theorem SetOutcome.kept_of_not_can (h : SetOutcome manager request name faults response after)
    (hBitrate : request.up = true ∧ request.setBitrate = true) (hPrefix : HasCanPrefix name)
    (hLink : manager.kernel.byName name = some link) (hKind : link.kind ≠ .can) (hDown : link.up = false) :
    after.kernel = manager.kernel := by
  have hLow {lowered : NetlinkManager} (hLowered : Lowered manager name faults.down lowered) :
      lowered.kernel = manager.kernel := by
    cases hLowered with
    | down hFound hUp =>
        rw [hLink, Option.some.injEq] at hFound
        rw [← hFound, hDown] at hUp
        cases hUp
    | alreadyDown => rfl
  cases h with
  | plain hPlain => exact absurd hBitrate hPlain
  | checkFailed _ _ _ hKernel => exact hKernel
  | downFailed _ _ hFound hUp =>
      rw [hLink, Option.some.injEq] at hFound
      rw [← hFound, hDown] at hUp
      cases hUp
  | bitrateFailed _ _ hLowered hRate =>
      have hFound := hLink
      rw [← hLow hLowered] at hFound
      rw [(hRate.of_not_can hFound hKind).1, hLow hLowered]
  | finished _ _ hLowered hRate hRated =>
      have hFound := hLink
      rw [← hLow hLowered] at hFound
      exact absurd hPrefix (((hRate.of_not_can hFound hKind).2).mp hRated)

/-- If nothing fails, a CAN link that is down can be brought to any state, with or
without a bitrate. -/
theorem processSetInterfaceState_succeeds (request : NetlinkRequest) (create : CreateFaults)
    (hLink : manager.kernel.byName name = some link) (hKind : link.kind = .can)
    (hDown : link.up = false) :
    (manager.processSetInterfaceState texts request name { noFaults with create }).1.result = 0 := by
  have hFinal (other : NetlinkManager) (found : Link) (hFound : other.kernel.byName name = some found) :
      (other.setInterfaceStateLibnl texts name request.up noFaults.final).1.result = 0 :=
    (stateOutcome texts request.up noFaults.final).result_of_applies hFound (by decide)
  by_cases hBitrate : request.up = true ∧ request.setBitrate = true
  · rw [processSetInterfaceState_of_down texts hBitrate rfl hLink hDown, setBitrateThenState]
    by_cases hPrefix : HasCanPrefix name
    · have hRated := setCanBitrateLibnl_of_down texts hPrefix hLink hKind hDown request.bitrate
      simp only [noFaults] at hFinal ⊢
      simp only [hRated, NetlinkResponse.ofMessage_result, ne_eq, not_true_eq_false, ↓reduceIte]
      exact hFinal _ _ (LinkTable.byName_change_self hLink)
    · have hSkipped : manager.fresh.setCanBitrateLibnl texts name request.bitrate noFaults.bitrate =
          (.ofMessage 0 (ascii "Not a CAN interface, skipping bitrate setting"), manager.fresh) :=
        if_pos hPrefix
      simp only [noFaults] at hFinal hSkipped ⊢
      simp only [hSkipped, NetlinkResponse.ofMessage_result, ne_eq, not_true_eq_false, ↓reduceIte]
      exact hFinal manager.fresh link hLink
  · rw [processSetInterfaceState, if_neg hBitrate]
    exact hFinal manager link hLink

end Preparation

end NetlinkManager
end HyCAN
