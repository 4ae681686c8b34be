import HyCAN.Daemon.BringUp

/-! What a failed request for the state of a link leaves behind: the link as it
was, or a link that is down. -/
namespace HyCAN.NetlinkManager

variable (texts : ErrorTexts) {manager : NetlinkManager} {name : List UInt8}

/-- The answer of the bitrate step, if the request gets that far. -/
def bitrateStep (manager : NetlinkManager) (request : NetlinkRequest) (name : List UInt8)
    (faults : RequestFaults) : Option NetlinkResponse :=
  if request.up ∧ request.setBitrate then
    let checked := manager.checkInterfaceIsUp name faults.check
    if checked.1.result ≠ 0 then none
    else
      let lowered := checked.2.lowerBeforeBitrate texts name checked.1.isUp faults.down
      if lowered.1.result ≠ 0 then none
      else some (lowered.2.setCanBitrateLibnl texts name request.bitrate faults.bitrate).1
  else none

/-- Before the bitrate is set, the link is down. -/
theorem Lowered.isDown {faults : StateFaults} {after : NetlinkManager} {link : Link}
    (h : Lowered manager name faults after) (hLink : after.kernel.byName name = some link) :
    link.up = false := by
  cases hBefore : manager.kernel.byName name with
  | none =>
      rw [h.changedAt.eq_of_none hBefore, hBefore] at hLink
      cases hLink
  | some before =>
      rw [(h.byName hBefore).1, Option.some.injEq] at hLink
      rw [← hLink]

/-- A bitrate that could not be set leaves the links alone. -/
theorem BitrateOutcome.kept_of_failed {rate : UInt32} {response : NetlinkResponse}
    {after : NetlinkManager} (h : BitrateOutcome manager name rate response after)
    (hFailed : response.result ≠ 0) : after = manager := by
  cases h with
  | skipped | failed => rfl
  | changed _ _ _ _ hResult => exact absurd hResult hFailed

/-- So does a state change that fails. -/
theorem StateOutcome.kept_of_failed {up : Bool} {faults : StateFaults} {response : NetlinkResponse}
    {after : NetlinkManager} (h : StateOutcome manager name up faults response after)
    (hFailed : response.result ≠ 0) : after.kernel = manager.kernel := by
  cases h with
  | refillFailed _ _ hKernel => exact hKernel
  | notFound | allocFailed | refused => rfl
  | already _ _ _ hResult => exact absurd hResult hFailed
  | changed _ _ _ hResult => exact absurd hResult hFailed

/-- The bitrate step does not bring the link up. -/
theorem BitrateOutcome.isDown {rate : UInt32} {response : NetlinkResponse} {after : NetlinkManager}
    {link : Link} (h : BitrateOutcome manager name rate response after)
    (hLow : ∀ low, manager.kernel.byName name = some low → low.up = false)
    (hLink : after.kernel.byName name = some link) : link.up = false := by
  cases hBefore : manager.kernel.byName name with
  | none =>
      rw [h.changedAt.eq_of_none hBefore, hBefore] at hLink
      cases hLink
  | some low =>
      obtain ⟨rated, hRated, hUp⟩ := h.keeps_up hBefore
      rw [hRated, Option.some.injEq] at hLink
      rw [← hLink, hUp]
      exact hLow low hBefore

/-- A link that is down wherever it is found is one that was not there or is down now. -/
theorem kept_or_down_of_isDown {before after : LinkTable} (hChanged : LinkTable.ChangedAt name before after)
    (hLow : ∀ link, after.byName name = some link → link.up = false) :
    after.byName name = before.byName name ∨
      ∃ link, after.byName name = some link ∧ link.up = false := by
  cases hBefore : before.byName name with
  | none =>
      rw [hChanged.eq_of_none hBefore]
      exact .inl hBefore
  | some link =>
      obtain ⟨changed, hLink, _⟩ := hChanged.kind hBefore
      exact .inr ⟨changed, hLink, hLow changed hLink⟩

/-- After a failed request the link is as it was or down. -/
theorem SetOutcome.kept_or_down {request : NetlinkRequest} {faults : RequestFaults}
    {response : NetlinkResponse} {after : NetlinkManager}
    (h : SetOutcome manager request name faults response after) (hFailed : response.result ≠ 0) :
    after.kernel.byName name = manager.kernel.byName name ∨
      ∃ link, after.kernel.byName name = some link ∧ link.up = false := by
  have hChanged := h.changedAt
  cases h with
  | plain _ hFinal => exact .inl (by rw [hFinal.kept_of_failed hFailed])
  | checkFailed _ _ _ hKernel => exact .inl (by rw [hKernel])
  | downFailed _ _ _ _ hLower hLowerFailed =>
      have hKept : after.kernel = manager.kernel := hLower.kept_of_failed hLowerFailed
      exact .inl (by rw [hKept])
  | bitrateFailed _ _ hLowered hRate =>
      exact kept_or_down_of_isDown hChanged fun link hLink =>
        hRate.isDown (fun _ hLow => hLowered.isDown hLow) hLink
  | finished _ _ hLowered hRate _ hFinal =>
      rw [hFinal.kept_of_failed hFailed] at hChanged ⊢
      exact kept_or_down_of_isDown hChanged fun link hLink =>
        hRate.isDown (fun _ hLow => hLowered.isDown hLow) hLink

/-- The steps before the bitrate, when both succeed. -/
theorem lowered_of_succeeded {check : Refill} {faults : StateFaults}
    (hChecked : (manager.checkInterfaceIsUp name check).1.result = 0)
    (hLower : ((manager.checkInterfaceIsUp name check).2.lowerBeforeBitrate texts name
      (manager.checkInterfaceIsUp name check).1.isUp faults).1.result = 0) :
    Lowered manager name faults ((manager.checkInterfaceIsUp name check).2.lowerBeforeBitrate texts
      name (manager.checkInterfaceIsUp name check).1.isUp faults).2 := by
  cases check with
  | refused | cutShort count => simp [checkInterfaceIsUp, refill] at hChecked
  | ok =>
      rw [checkInterfaceIsUp_ok] at hLower ⊢
      cases hLink : manager.kernel.byName name with
      | none => exact .alreadyDown (by simp [hLink])
      | some link =>
          simp only [hLink, NetlinkResponse.ofQuery_isUp] at hLower ⊢
          cases hUp : link.up with
          | false => exact .alreadyDown (by simp [hLink, hUp])
          | true =>
              rw [hUp] at hLower
              exact .down hLink hUp (stateOutcome texts false faults) hLower

/-- A bitrate step that fails ends the request, and the link is down then. -/
theorem bitrateStep_failed {request : NetlinkRequest} {faults : RequestFaults}
    {response : NetlinkResponse} (hStep : manager.bitrateStep texts request name faults = some response)
    (hFailed : response.result ≠ 0) :
    (manager.processSetInterfaceState texts request name faults).1 = response ∧
      ∀ link, (manager.processSetInterfaceState texts request name faults).2.kernel.byName name =
        some link → link.up = false := by
  unfold bitrateStep at hStep
  dsimp only at hStep
  split_ifs at hStep with hBitrate hChecked hLower
  rw [Option.some.injEq] at hStep
  subst hStep
  have hLowered := lowered_of_succeeded texts (not_not.mp hChecked) (not_not.mp hLower)
  have hRate := bitrateOutcome texts hLowered.recent request.bitrate faults.bitrate
  rw [processSetInterfaceState, if_pos hBitrate]
  simp only [hChecked, hLower, ↓reduceIte]
  rw [setBitrateThenState, if_pos hFailed]
  exact ⟨rfl, fun link hLink => hRate.isDown (fun _ hLow => hLowered.isDown hLow) hLink⟩

/-- After a `SET_INTERFACE_STATE` that fails, the links of other names are as they were, and the
named link is as it was or down, so never up with another bitrate. If it is the
bitrate that could not be set, the link is down. -/
theorem failed_state_change_safe (manager : NetlinkManager) (request : NetlinkRequest)
    (hOperation : RequestType.ofByte request.operation = some .setInterfaceState)
    (memory : List UInt8) (faults : RequestFaults) :
    let name := request.name memory
    let done := manager.processRequest texts request memory faults
    (done.1.result ≠ 0 →
      (∀ other, other.name ≠ name → (other ∈ done.2.kernel.links ↔ other ∈ manager.kernel.links)) ∧
      (done.2.kernel.byName name = manager.kernel.byName name ∨
        ∃ link, done.2.kernel.byName name = some link ∧ link.up = false) ∧
      ∀ link, done.2.kernel.byName name = some link → link.up = true →
        ∃ before, manager.kernel.byName name = some before ∧ link.bitrate = before.bitrate) ∧
    ∀ response, manager.bitrateStep texts request name faults = some response →
      response.result ≠ 0 →
        done.1 = response ∧ ∀ link, done.2.kernel.byName name = some link → link.up = false := by
  intro name done
  have hDone : done = manager.processSetInterfaceState texts request name faults :=
    processRequest_setInterfaceState texts manager request hOperation memory faults
  have hSet : SetOutcome manager request name faults done.1 done.2 :=
    hDone ▸ setOutcome texts request faults
  constructor
  · intro hFailed
    have hSafe := hSet.kept_or_down hFailed
    refine ⟨fun other hNe => hSet.changedAt.mem_iff hNe, hSafe, ?_⟩
    intro link hLink hUp
    rcases hSafe with hKept | ⟨low, hLow, hDown⟩
    · exact ⟨link, hKept ▸ hLink, rfl⟩
    · rw [hLink, Option.some.injEq] at hLow
      rw [hLow, hDown] at hUp
      cases hUp
  · intro response hStep hFailed
    rw [hDone]
    exact bitrateStep_failed texts hStep hFailed

theorem validLinkName_can0 : ValidLinkName (ascii "can0") := by decide +kernel

/-- A CAN link in use. -/
def runningCan0 : NetlinkManager where
  kernel := .single ⟨1, ascii "can0", .can, true, 500000⟩ validLinkName_can0
  linkCache := []

/-- The kernel refuses to bring `can0` up again after its bitrate was changed. -/
theorem failed_state_change_safe_can0 :
    let faults := { noFaults with final := ⟨.ok, false, some 15, .ok⟩ }
    let after := (runningCan0.processRequest ⟨fun _ => [], fun _ => []⟩
      (.ofState (ascii "can0") true true 1000000) [] faults).2.kernel
    after.byName (ascii "can0") = runningCan0.kernel.byName (ascii "can0") ∨
      ∃ link, after.byName (ascii "can0") = some link ∧ link.up = false := by
  have hSafe := failed_state_change_safe ⟨fun _ => [], fun _ => []⟩ runningCan0
    (.ofState (ascii "can0") true true 1000000) rfl []
    { noFaults with final := ⟨.ok, false, some 15, .ok⟩ }
  have hName : (NetlinkRequest.ofState (ascii "can0") true true 1000000).name [] = ascii "can0" := by
    decide +kernel
  rw [hName] at hSafe
  exact (hSafe.1 (by decide +kernel)).2.1

end HyCAN.NetlinkManager
