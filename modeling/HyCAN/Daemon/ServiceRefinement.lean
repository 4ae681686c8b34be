import HyCAN.Daemon.ConcurrentRequests
import HyCAN.Daemon.LinkService

/-! The manager refines the service: what the links of the kernel look like by their names is
at any time what the service has, and each response is one that it allows. -/
namespace HyCAN

open Transition

/-- What clients know of a link. -/
def Link.status (link : Link) : LinkStatus := ⟨link.kind, link.up, link.bitrate⟩

namespace LinkTable

variable {name : List UInt8} {before after table : LinkTable} {link : Link}

/-- The links by their names. -/
def status (table : LinkTable) : LinkService.Links := fun name => (table.byName name).map Link.status

theorem status_of_byName (h : table.byName name = some link) : table.status name = some link.status := by
  rw [status, h, Option.map_some]

/-- Tables that have the same links of a name look the same there. -/
theorem status_congr (h : ∀ link, link.name = name → (link ∈ after.links ↔ link ∈ before.links)) :
    after.status name = before.status name := by
  have hSame : after.byName name = before.byName name := by
    apply Option.ext
    intro link
    rw [byName_eq_some_iff, byName_eq_some_iff]
    exact and_congr_left fun hName => h link hName
  rw [status, status, hSame]

/-- Where the link of one name is changed, only its entry is. -/
theorem ChangedAt.status (h : ChangedAt name before after) (hLink : after.byName name = some link) :
    after.status = Function.update before.status name (some link.status) := by
  funext other
  by_cases hSame : other = name
  · rw [hSame, Function.update_self, status_of_byName hLink]
  · rw [Function.update_of_ne hSame]
    exact status_congr fun found hName => h.mem_iff (hName ▸ hSame)

/-- A new link has an entry of its own. -/
theorem status_append (hLinks : after.links = before.links ++ [link]) :
    after.status = Function.update before.status link.name (some link.status) := by
  funext other
  by_cases hSame : other = link.name
  · rw [hSame, Function.update_self]
    exact status_of_byName (byName_eq_some_iff.mpr ⟨by simp [hLinks], rfl⟩)
  · rw [Function.update_of_ne hSame]
    apply status_congr
    intro found hName
    have hNe : found ≠ link := fun hFound => hSame (hName ▸ hFound ▸ rfl)
    simp [hLinks, hNe]

/-- The ways through a creation. -/
theorem rtnlLinkAdd_cases (table : LinkTable) (name : List UInt8) (outcome : AddOutcome) :
    (∃ code < 0, table.rtnlLinkAdd name outcome = (code, table)) ∨
      (name.take (ifNameSize - 1) ∈ table.links.map Link.name ∧ table.rtnlLinkAdd name outcome = (0, table)) ∨
      ∃ link number after, table.rtnlLinkAdd name outcome = (0, after) ∧
        assignedName (name.take (ifNameSize - 1)) number = some link.name ∧
        link.status = ⟨.vcan, false, 0⟩ ∧ link.name ∉ table.links.map Link.name ∧
        after.links = table.links ++ [link] := by
  unfold rtnlLinkAdd
  cases outcome with
  | refused code => exact .inl ⟨-(code + 1), by omega, rfl⟩
  | accepted index number =>
      dsimp only
      generalize hAssigned : assignedName (name.take (ifNameSize - 1)) number = picked
      by_cases hTaken : name.take (ifNameSize - 1) ∈ table.links.map Link.name
      · rw [if_pos hTaken]
        exact .inr (.inl ⟨hTaken, rfl⟩)
      · rw [if_neg hTaken]
        cases picked with
        | none => exact .inl ⟨-7, by omega, rfl⟩
        | some assigned =>
            dsimp only
            split_ifs with hFree
            · exact .inr (.inr ⟨_, number, _, rfl, hAssigned, rfl, hFree.2.1, rfl⟩)
            · exact .inl ⟨-7, by omega, rfl⟩

end LinkTable

namespace NetlinkManager

variable (texts : ErrorTexts) {manager after : NetlinkManager} {name : List UInt8}
  {response : NetlinkResponse} {link : Link}

/-- A state change that fails leaves all links as they were. -/
theorem StateOutcome.kernel_of_failed {up : Bool} {faults : StateFaults}
    (h : StateOutcome manager name up faults response after) (hFailed : response.result ≠ 0) :
    after.kernel = manager.kernel := by
  cases h with
  | refillFailed _ _ hKernel => exact hKernel
  | notFound | already | allocFailed | refused => rfl
  | changed _ _ _ hResult => exact absurd hResult hFailed

/-- What becomes of the bitrate of a link that is known. -/
theorem BitrateOutcome.rates {rate : UInt32} (h : BitrateOutcome manager name rate response after)
    (hLink : manager.kernel.byName name = some link) (hResult : response.result = 0) :
    after.kernel.byName name = some { link with bitrate := if HasCanPrefix name then rate else link.bitrate } ∧
      (HasCanPrefix name → link.kind = .can) := by
  cases h with
  | skipped hPrefix => simp [hPrefix, hLink]
  | failed _ hFailed => omega
  | changed hPrefix hFound hKind =>
      rw [hLink, Option.some.injEq] at hFound
      subst hFound
      rw [if_pos hPrefix]
      exact ⟨LinkTable.byName_change_self hLink, fun _ => hKind⟩

theorem BitrateOutcome.kernel_of_failed {rate : UInt32} (h : BitrateOutcome manager name rate response after)
    (hFailed : response.result ≠ 0) : after.kernel = manager.kernel := by
  cases h with
  | skipped | failed => rfl
  | changed _ _ _ _ hResult => exact absurd hResult hFailed

variable {asked : Asked} {faults : RequestFaults}

/-- A request for the state that succeeds. -/
theorem SetOutcome.settles (h : SetOutcome manager asked.1 asked.name faults response after)
    (hResult : response.result = 0) :
    ∃ link, manager.kernel.byName asked.name = some link ∧ (asked.Rates → link.kind = .can) ∧
      ∃ settled, after.kernel.byName asked.name = some settled ∧
        settled.status = asked.settled link.status := by
  cases h with
  | plain hPlain hFinal =>
      obtain ⟨link, hLink, hAfter⟩ := hFinal.success hResult
      have hNot : ¬asked.Rates := fun hRates => hPlain ⟨hRates.1, hRates.2.1⟩
      refine ⟨link, hLink, fun hRates => absurd hRates hNot, _, hAfter, ?_⟩
      simp [Link.status, Asked.settled, hNot]
  | checkFailed _ _ hFailed => simp [hResult] at hFailed
  | downFailed _ _ _ _ _ hFailed hSame => exact absurd (hSame ▸ hResult) hFailed
  | bitrateFailed _ _ _ _ hFailed => exact absurd hResult hFailed
  | finished hBitrate _ hLowered hRate hRated hFinal =>
      obtain ⟨last, hLast, hAfter⟩ := hFinal.success hResult
      cases hLink : manager.kernel.byName asked.name with
      | none =>
          have hSame := (hLowered.changedAt.trans hRate.changedAt).eq_of_none hLink
          simp [hSame, hLink] at hLast
      | some link =>
          obtain ⟨hRatedLink, hKind⟩ := hRate.rates (hLowered.byName hLink).1 hRated
          rw [hLast, Option.some.injEq] at hRatedLink
          subst hRatedLink
          refine ⟨link, rfl, fun hRates => hKind hRates.2.2, _, hAfter, ?_⟩
          by_cases hPrefix : HasCanPrefix asked.name <;>
            simp [Link.status, Asked.settled, Asked.Rates, hBitrate.1, hBitrate.2, hPrefix]

/-- One that fails has left everything as it was, or the link down. -/
theorem SetOutcome.leaves (h : SetOutcome manager asked.1 asked.name faults response after)
    (hFailed : response.result ≠ 0) :
    after.kernel = manager.kernel ∨
      (asked.1.up = true ∧ asked.1.setBitrate = true) ∧
        ∃ link left, manager.kernel.byName asked.name = some link ∧
          after.kernel.byName asked.name = some left ∧ left.kind = link.kind ∧ left.up = false ∧
          (left.bitrate = link.bitrate ∨
            left.bitrate = asked.1.bitrate ∧ asked.Rates ∧ link.kind = .can) := by
  have hNone {middle : NetlinkManager} (hChanged : LinkTable.ChangedAt asked.name manager.kernel middle.kernel)
      (hLink : manager.kernel.byName asked.name = none) : middle.kernel = manager.kernel :=
    hChanged.eq_of_none hLink
  cases h with
  | plain _ hFinal => exact .inl (hFinal.kernel_of_failed hFailed)
  | checkFailed _ _ _ hKernel => exact .inl hKernel
  | downFailed _ _ _ _ hDown hDownFailed => exact .inl (hDown.kernel_of_failed hDownFailed)
  | bitrateFailed hBitrate _ hLowered hRate =>
      cases hLink : manager.kernel.byName asked.name with
      | none => exact .inl (hNone (hLowered.changedAt.trans hRate.changedAt) hLink)
      | some link =>
          have hLow := (hLowered.byName hLink).1
          rw [← hRate.kernel_of_failed hFailed] at hLow
          exact .inr ⟨hBitrate, link, _, rfl, hLow, rfl, rfl, .inl rfl⟩
  | finished hBitrate _ hLowered hRate hRated hFinal =>
      have hKernel := hFinal.kernel_of_failed hFailed
      cases hLink : manager.kernel.byName asked.name with
      | none =>
          have hSame := hNone (hLowered.changedAt.trans hRate.changedAt) hLink
          exact .inl (hKernel.trans hSame)
      | some link =>
          obtain ⟨hRatedLink, hKind⟩ := hRate.rates (hLowered.byName hLink).1 hRated
          rw [← hKernel] at hRatedLink
          refine .inr ⟨hBitrate, link, _, rfl, hRatedLink, rfl, rfl, ?_⟩
          by_cases hPrefix : HasCanPrefix asked.name
          · exact .inr ⟨if_pos hPrefix, ⟨hBitrate.1, hBitrate.2, hPrefix⟩, hKind hPrefix⟩
          · exact .inl (if_neg hPrefix)

theorem SetOutcome.allows (h : SetOutcome manager asked.1 asked.name faults response after)
    (hOperation : asked.operation = some .setInterfaceState) :
    LinkService.Allows manager.kernel.status asked response after.kernel.status := by
  by_cases hResult : response.result = 0
  · obtain ⟨link, hLink, hKind, settled, hSettled, hStatus⟩ := h.settles hResult
    rw [h.changedAt.status hSettled, hStatus]
    exact .set hOperation hResult (LinkTable.status_of_byName hLink) hKind
  · rcases h.leaves hResult with hKernel | ⟨⟨hUp, hRate⟩, link, left, hLink, hLeft, hKind, hDown, hBitrate⟩
    · rw [hKernel]
      exact .failed hResult
    · have hStatus : left.status = ⟨link.status.kind, false, left.bitrate⟩ := by
        simp [Link.status, hKind, hDown]
      rw [h.changedAt.status hLeft, hStatus]
      exact .leftDown hOperation hResult hUp hRate (LinkTable.status_of_byName hLink) hBitrate

/-- The ways through a request to create a link. -/
theorem createVcanInterfaceIfNotExists_cases (kernel : LinkTable) (name : List UInt8) (faults : CreateFaults) :
    (∃ message, createVcanInterfaceIfNotExists texts kernel name faults = (.error message, kernel)) ∨
      ((name.take (ifNameSize - 1) ∈ kernel.links.map Link.name ∨
          (kernel.byName (ioctlName name)).isSome = true) ∧
        createVcanInterfaceIfNotExists texts kernel name faults = (.ok (), kernel)) ∨
      ∃ link number after, createVcanInterfaceIfNotExists texts kernel name faults = (.ok (), after) ∧
        assignedName (name.take (ifNameSize - 1)) number = some link.name ∧
        link.status = ⟨.vcan, false, 0⟩ ∧ link.name ∉ kernel.links.map Link.name ∧
        after.links = kernel.links ++ [link] := by
  unfold createVcanInterfaceIfNotExists
  cases faults.probe with
  | some errno => exact .inl ⟨_, rfl⟩
  | none =>
      dsimp only
      by_cases hThere : (kernel.byName (ioctlName name)).isSome = true
      · rw [if_pos hThere]
        exact .inr (.inl ⟨.inr hThere, rfl⟩)
      · rw [if_neg hThere]
        split
        · exact .inl ⟨_, rfl⟩
        · split
          · exact .inl ⟨_, rfl⟩
          · split
            · exact .inl ⟨_, rfl⟩
            · rcases kernel.rtnlLinkAdd_cases name faults.add with
                ⟨code, hNegative, hAdd⟩ | ⟨hMem, hAdd⟩ | ⟨link, number, after, hAdd, hLink⟩
              · rw [hAdd]
                exact .inl ⟨_, if_pos hNegative⟩
              · rw [hAdd]
                exact .inr (.inl ⟨.inl hMem, rfl⟩)
              · rw [hAdd]
                exact .inr (.inr ⟨link, number, after, rfl, hLink⟩)

theorem allows_exists (hOperation : asked.operation = some .interfaceExists) (fault : Refill)
    (h : manager.checkInterfaceExists asked.name fault = (response, after)) :
    LinkService.Allows manager.kernel.status asked response after.kernel.status := by
  cases fault with
  | refused | cutShort count =>
      obtain ⟨rfl, rfl⟩ := Prod.mk.inj h
      exact .failed (by simp)
  | ok =>
      rw [checkInterfaceExists_ok] at h
      obtain ⟨rfl, rfl⟩ := Prod.mk.inj h
      have hExists : (manager.fresh.cached asked.name).isSome = (manager.kernel.status asked.name).isSome := by
        rw [cached_fresh, LinkTable.status, Option.isSome_map]
      rw [hExists]
      exact .exist hOperation

theorem allows_isUp (hOperation : asked.operation = some .interfaceIsUp) (fault : Refill)
    (h : manager.checkInterfaceIsUp asked.name fault = (response, after)) :
    LinkService.Allows manager.kernel.status asked response after.kernel.status := by
  cases fault with
  | refused | cutShort count =>
      obtain ⟨rfl, rfl⟩ := Prod.mk.inj h
      exact .failed (by simp)
  | ok =>
      rw [checkInterfaceIsUp_ok] at h
      obtain ⟨rfl, rfl⟩ := Prod.mk.inj h
      have hUp : LinkService.Allows manager.kernel.status asked _ _ := .isUp hOperation
      cases hLink : manager.kernel.byName asked.name with
      | none =>
          rw [LinkTable.status, hLink] at hUp
          exact hUp
      | some link =>
          rw [LinkTable.status_of_byName hLink] at hUp
          exact hUp

theorem allows_create (hOperation : asked.operation = some .createVcanInterface)
    {made : Except (List UInt8) Unit} {kernel : LinkTable} (faults : CreateFaults)
    (h : createVcanInterfaceIfNotExists texts manager.kernel asked.name faults = (made, kernel)) :
    match made with
    | .error _ => kernel = manager.kernel
    | .ok _ => ∀ response : NetlinkResponse, response.result = 0 →
        LinkService.Allows manager.kernel.status asked response kernel.status := by
  rcases createVcanInterfaceIfNotExists_cases texts manager.kernel asked.name faults with
    ⟨message, hMade⟩ | ⟨hThere, hMade⟩ | ⟨link, number, after, hMade, hName, hStatus, hFree, hLinks⟩
  · rw [hMade] at h
    obtain ⟨rfl, rfl⟩ := Prod.mk.inj h
    rfl
  · rw [hMade] at h
    obtain ⟨rfl, rfl⟩ := Prod.mk.inj h
    intro response hResult
    rcases hThere with hMem | hProbed
    · obtain ⟨link, hLink, hName⟩ := List.mem_map.mp hMem
      apply LinkService.Allows.found hOperation hResult
      rw [LinkTable.status_of_byName (LinkTable.byName_eq_some_iff.mpr ⟨hLink, hName⟩)]
      rfl
    · apply LinkService.Allows.probed hOperation hResult
      rw [LinkTable.status, Option.isSome_map]
      exact hProbed
  · rw [hMade] at h
    obtain ⟨rfl, rfl⟩ := Prod.mk.inj h
    intro response hResult
    rw [LinkTable.status_append hLinks, hStatus]
    apply LinkService.Allows.create hOperation hResult hName
    rw [LinkTable.status, LinkTable.byName_eq_none hFree, Option.map_none]

/-- Whatever fails, a request is answered as the service allows. -/
theorem allows_of_answers (h : NetlinkProgram.Answers texts manager asked response after) :
    LinkService.Allows manager.kernel.status asked response after.kernel.status := by
  obtain ⟨faults, _, hRequest⟩ := h
  have hUnknown (message : List UInt8) : LinkService.Allows manager.kernel.status asked
      (.ofMessage (-1) message) manager.kernel.status := .failed (by simp)
  cases hOperation : RequestType.ofByte asked.1.operation with
  | none =>
      simp only [processRequest, hOperation] at hRequest
      obtain ⟨rfl, rfl⟩ := Prod.mk.inj hRequest
      exact hUnknown _
  | some operation =>
      cases operation with
      | checkInterfaceState | validateCanHardware | clientRegister =>
          simp only [processRequest, hOperation] at hRequest
          obtain ⟨rfl, rfl⟩ := Prod.mk.inj hRequest
          exact hUnknown _
      | interfaceExists =>
          simp only [processRequest, hOperation] at hRequest
          exact allows_exists hOperation faults.check hRequest
      | interfaceIsUp =>
          simp only [processRequest, hOperation] at hRequest
          exact allows_isUp hOperation faults.check hRequest
      | createVcanInterface =>
          simp only [processRequest, hOperation] at hRequest
          cases hMade : createVcanInterfaceIfNotExists texts manager.kernel asked.name faults.create with
          | mk made kernel =>
              have hAllows := allows_create texts hOperation faults.create hMade
              rw [Asked.name] at hMade
              rw [hMade] at hRequest
              cases made with
              | error message =>
                  obtain ⟨rfl, rfl⟩ := Prod.mk.inj hRequest
                  exact (show kernel = manager.kernel from hAllows) ▸ hUnknown _
              | ok =>
                  obtain ⟨rfl, rfl⟩ := Prod.mk.inj hRequest
                  exact hAllows _ rfl
      | setInterfaceState =>
          have hSet := setOutcome_processRequest texts manager asked.1 hOperation asked.2 faults
          rw [hRequest] at hSet
          exact SetOutcome.allows hSet hOperation

/-- So a history of the manager is one of the service. -/
theorem history_allows {done : List (Asked × NetlinkResponse)}
    (h : History (NetlinkProgram.Answers texts) manager done after) :
    History LinkService.Allows manager.kernel.status done after.kernel.status := by
  induction h with
  | nil => exact .nil
  | snoc _ hLast ih => exact ih.snoc (allows_of_answers texts hLast)

end NetlinkManager

namespace NetlinkProgram

variable (texts : ErrorTexts) {nlSocket linkCache : Nat} {others : Nat → Option NlObject}
  {manager : NetlinkManager} {s : Libnl} {Tid : Type} [DecidableEq Tid]
  (requests : Tid → NetlinkRequest × List UInt8)
  {pool : MutexPool LibnlCall.Answer Tid NetlinkResponse Libnl} {order : List (Tid × NetlinkResponse)}

theorem history_served (hReady : s.Holds nlSocket linkCache others manager)
    (h : MutexPool.Finishes Libnl.handle (atOnce texts requests nlSocket linkCache s) pool order) :
    ∃ links, History LinkService.Allows s.kernel.status (answered requests order) links ∧
      (pool.held = none → pool.state.kernel.status = links) := by
  obtain ⟨after, hHistory, hFree⟩ := history_of_finishes texts requests hReady h
  refine ⟨after.kernel.status, ?_, ?_⟩
  · rw [hReady.kernel]
    exact NetlinkManager.history_allows texts hHistory
  · intro hNone
    rw [(hFree hNone).kernel]

/-- However the calls of the workers interleave, the requests that are done, in the order in
which they got done, are a history of the service that starts with the links that the kernel
had. While no request is inside, it ends with those that the kernel has, and whatever is
different about a link is accounted for by requests that are done. -/
theorem requests_served (hReady : s.Holds nlSocket linkCache others manager)
    (h : MutexPool.Finishes Libnl.handle (atOnce texts requests nlSocket linkCache s) pool order) :
    ∃ links, History LinkService.Allows s.kernel.status (answered requests order) links ∧
      (pool.held = none → pool.state.kernel.status = links ∧
        LinkService.Accounted s.kernel.status (answered requests order) pool.state.kernel.status) := by
  obtain ⟨links, hHistory, hFree⟩ := history_served texts requests hReady h
  refine ⟨links, hHistory, ?_⟩
  intro hNone
  rw [hFree hNone]
  exact ⟨rfl, LinkService.accounted hHistory⟩

/-- A client that asks for the state of a link is told what the last request asked for that
got done before and was to set the link, if both succeed. -/
theorem query_tells_last_set (hReady : s.Holds nlSocket linkCache others manager)
    {front middle back : List (Tid × NetlinkResponse)} {setter asker : Tid}
    {response answer : NetlinkResponse} {name : List UInt8}
    (h : MutexPool.Finishes Libnl.handle (atOnce texts requests nlSocket linkCache s) pool
      (front ++ (setter, response) :: middle ++ (asker, answer) :: back))
    (hSets : Asked.Sets (requests setter) name) (hDone : response.result = 0)
    (hOther : ∀ entry ∈ middle, ¬Asked.Sets (requests entry.1) name)
    (hQuery : Asked.operation (requests asker) = some .interfaceIsUp ∧ Asked.name (requests asker) = name)
    (hAnswer : answer.result = 0) : answer = .ofQuery 0 true (requests setter).1.up := by
  obtain ⟨links, hHistory, _⟩ := history_served texts requests hReady h
  simp only [answered, List.map_append, List.map_cons] at hHistory
  apply LinkService.reads_last_set hHistory hSets hDone _ hQuery hAnswer
  intro entry hMem
  obtain ⟨other, hOtherMem, rfl⟩ := List.mem_map.mp hMem
  exact hOther other hOtherMem

/-- One client takes `can0` up, and one asks for its state. -/
def setAndQuery (second : Bool) : NetlinkRequest × List UInt8 :=
  (if second then .ofQuery .interfaceIsUp (ascii "can0") else .ofState (ascii "can0") true false 0, [])

/-- The calls of the one, and then those of the other. -/
def setThenQuery : List (Bool × LibnlFault) := List.replicate 13 (false, well) ++ List.replicate 8 (true, well)

theorem finishes_setThenQuery : ∃ pool response answer, response.result = 0 ∧ answer.result = 0 ∧
    MutexPool.Finishes Libnl.handle (atOnce ⟨fun _ => [], fun _ => []⟩ setAndQuery 1 2 readyCan0) pool
      ([] ++ (false, response) :: [] ++ (true, answer) :: []) := by
  have hRuns : ((MutexPool.machine Libnl.handle).run
      (atOnce ⟨fun _ => [], fun _ => []⟩ setAndQuery 1 2 readyCan0) setThenQuery).isSome = true := by
    decide +kernel
  have hFinished : (MutexPool.finished Libnl.handle
      (atOnce ⟨fun _ => [], fun _ => []⟩ setAndQuery 1 2 readyCan0) setThenQuery).map
        (fun entry => (entry.1, entry.2.result)) = [(false, 0), (true, 0)] := by
    decide +kernel
  obtain ⟨pool, hRun⟩ := Option.isSome_iff_exists.mp hRuns
  have hOrder := MutexPool.Finishes.start.of_run hRun
  generalize MutexPool.finished Libnl.handle _ setThenQuery = order at hFinished hOrder
  obtain ⟨⟨first, response⟩, rest, rfl, hFirst, hRest⟩ := List.map_eq_cons_iff.mp hFinished
  obtain ⟨⟨second, answer⟩, left, rfl, hSecond, hLeft⟩ := List.map_eq_cons_iff.mp hRest
  obtain ⟨rfl, hResponse⟩ := Prod.mk.inj hFirst
  obtain ⟨rfl, hAnswer⟩ := Prod.mk.inj hSecond
  rw [List.map_eq_nil_iff.mp hLeft] at hOrder
  exact ⟨pool, response, answer, hResponse, hAnswer, hOrder⟩

/-- Both are done. -/
theorem requests_served_two :
    let texts : ErrorTexts := ⟨fun _ => [], fun _ => []⟩
    ∃ pool order, MutexPool.Finishes Libnl.handle (atOnce texts setAndQuery 1 2 readyCan0) pool order ∧
      order.map Prod.fst = [false, true] ∧
      ∃ links, History LinkService.Allows readyCan0.kernel.status (answered setAndQuery order) links ∧
        (pool.held = none → pool.state.kernel.status = links ∧
          LinkService.Accounted readyCan0.kernel.status (answered setAndQuery order)
            pool.state.kernel.status) := by
  obtain ⟨pool, response, answer, _, _, hOrder⟩ := finishes_setThenQuery
  exact ⟨pool, _, hOrder, rfl, requests_served _ setAndQuery holds_readyCan0 hOrder⟩

/-- The second is told that `can0` is up. -/
theorem query_tells_last_set_two :
    let texts : ErrorTexts := ⟨fun _ => [], fun _ => []⟩
    ∃ pool response answer, MutexPool.Finishes Libnl.handle (atOnce texts setAndQuery 1 2 readyCan0) pool
        ([] ++ (false, response) :: [] ++ (true, answer) :: []) ∧
      answer = .ofQuery 0 true (setAndQuery false).1.up := by
  intro texts
  obtain ⟨pool, response, answer, hResponse, hAnswer, hOrder⟩ := finishes_setThenQuery
  have hSets : Asked.Sets (setAndQuery false) (ascii "can0") := by decide +kernel
  exact ⟨pool, response, answer, hOrder, query_tells_last_set texts setAndQuery holds_readyCan0 hOrder
    hSets hResponse (by simp) (by decide +kernel) hAnswer⟩

end NetlinkProgram
end HyCAN
