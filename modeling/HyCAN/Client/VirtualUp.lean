import HyCAN.Client.Reachable

/-! Bringing up a vcan interface whose name does not begin with `can`: the assertions
between its calls, which hold whatever other clients of the same interface do. -/
namespace HyCAN.VirtualUp

open NetlinkManager Transition

variable {texts : ErrorTexts} {name : List UInt8} {start : LinkTable} {manager later : NetlinkManager}

def Present (name : List UInt8) (manager : NetlinkManager) : Prop :=
  (manager.kernel.byName name).isSome

def IsUp (name : List UInt8) (manager : NetlinkManager) : Prop :=
  ∃ link, manager.kernel.byName name = some link ∧ link.up = true

/-- The other links are as they were, and the link of the name is no other than a vcan
link, if it is there. -/
structure Underway (name : List UInt8) (start : LinkTable) (manager : NetlinkManager) : Prop where
  others : ∀ other, other.name ≠ name → (other ∈ manager.kernel.links ↔ other ∈ start.links)
  kind : ∀ link, manager.kernel.byName name = some link → link.kind = .vcan

/-- What the requests of one client may do under the eyes of the others. -/
structure Advances (name : List UInt8) (manager later : NetlinkManager) : Prop where
  underway : ∀ start, Underway name start manager → Underway name start later
  present : Present name manager → Present name later
  isUp : IsUp name manager → IsUp name later

theorem Advances.of_kernel (h : later.kernel = manager.kernel) : Advances name manager later where
  underway start hUnderway := ⟨h ▸ hUnderway.others, h ▸ hUnderway.kind⟩
  present hPresent := by
    rw [Present, h]
    exact hPresent
  isUp hUp := by
    rw [IsUp, h]
    exact hUp

theorem stable_underway : Program.Stable (Advances name) (Underway name start) :=
  fun _ _ hAdvances hUnderway => hAdvances.underway start hUnderway

theorem stable_present :
    Program.Stable (Advances name) fun manager => Underway name start manager ∧ Present name manager :=
  fun _ _ hAdvances h => ⟨hAdvances.underway start h.1, hAdvances.present h.2⟩

theorem stable_isUp :
    Program.Stable (Advances name) fun manager => Underway name start manager ∧ IsUp name manager :=
  fun _ _ hAdvances h => ⟨hAdvances.underway start h.1, hAdvances.isUp h.2⟩

/-- A new vcan link is the link of its name. -/
theorem byName_append {link : Link} (hName : link.name = name)
    (hLinks : later.kernel.links = manager.kernel.links ++ [link]) :
    later.kernel.byName name = some link ∧
      ∀ other, other.name ≠ name → (other ∈ later.kernel.links ↔ other ∈ manager.kernel.links) := by
  constructor
  · exact LinkTable.byName_eq_some_iff.mpr ⟨by simp [hLinks], hName⟩
  · intro other hNe
    have hOther : other ≠ link := fun hSame => hNe (hSame ▸ hName)
    simp [hLinks, hOther]

theorem advances_create {index : Nat} (hNone : manager.kernel.byName name = none)
    (hLinks : later.kernel.links = manager.kernel.links ++ [⟨index, name, .vcan, false, 0⟩]) :
    Advances name manager later ∧ Present name later := by
  obtain ⟨hLink, hOthers⟩ := byName_append rfl hLinks
  refine ⟨⟨?_, ?_, ?_⟩, by simp [Present, hLink]⟩
  · intro start hUnderway
    constructor
    · intro other hNe
      rw [hOthers other hNe, hUnderway.others other hNe]
    · intro link hFound
      rw [hLink, Option.some.injEq] at hFound
      rw [← hFound]
  · intro hPresent
    simp [Present, hNone] at hPresent
  · rintro ⟨link, hFound, _⟩
    simp [hNone] at hFound

theorem advances_setUp {link : Link} (hLink : manager.kernel.byName name = some link)
    (hUp : later.kernel.byName name = some { link with up := true })
    (hOthers : ∀ other, other.name ≠ name →
      (other ∈ later.kernel.links ↔ other ∈ manager.kernel.links)) :
    Advances name manager later ∧ IsUp name later := by
  refine ⟨⟨?_, ?_, ?_⟩, _, hUp, rfl⟩
  · intro start hUnderway
    constructor
    · intro other hNe
      rw [hOthers other hNe, hUnderway.others other hNe]
    · intro found hFound
      rw [hUp, Option.some.injEq] at hFound
      rw [← hFound]
      exact hUnderway.kind link hLink
  · intro _
    simp [Present, hUp]
  · intro _
    exact ⟨_, hUp, rfl⟩

/-- Making the client changes nothing. -/
theorem outline_ensureInitialized {Value : Type} {operation : ClientProgram (Except Error Value)}
    {pre : NetlinkManager → Prop} {post : Except Error Value → NetlinkManager → Prop}
    (hStable : Program.Stable (Advances name) pre)
    (h : Program.Outline (reachable texts) (Advances name) post operation pre) :
    Program.Outline (reachable texts) (Advances name) post (IPCManager.ensureInitialized operation) pre := by
  refine .ask (fun answer manager => answer = none ∧ pre manager) ?_ ?_ ?_
  · rintro answer before after hAdvances ⟨hNone, hPre⟩
    exact ⟨hNone, hStable before after hAdvances hPre⟩
  · intro _ manager hPre
    exact ⟨.of_kernel rfl, rfl, hPre⟩
  · intro answer
    cases answer with
    | none => exact h.weaken fun _ hPre => hPre.2
    | some what => exact .of_false _ fun _ hPre => by simp at hPre

/-- The operations whose request is answered without error. -/
theorem outline_requestOnly {Value : Type} {request : NetlinkRequest} {failure : List UInt8}
    {value : NetlinkResponse → Value} {pre : NetlinkManager → Prop}
    {post : Value → NetlinkManager → Prop}
    (hStable : ∀ response, Program.Stable (Advances name) (post (value response)))
    (hAnswer : ∀ choice manager, pre manager → ∃ response later,
      reachable texts (.sendRequest request) choice manager = (.ok response, later) ∧
        response.result = 0 ∧ Advances name manager later ∧ post (value response) later) :
    Program.Outline (reachable texts) (Advances name)
      (fun result manager => ∃ found, result = .ok found ∧ post found manager)
      (NetlinkClient.requestOnly request failure value) pre := by
  refine .ask (fun answer manager => ∃ response, answer = .ok response ∧ response.result = 0 ∧
    post (value response) manager) ?_ ?_ ?_
  · rintro answer before after hAdvances ⟨response, hOk, hResult, hPost⟩
    exact ⟨response, hOk, hResult, hStable response before after hAdvances hPost⟩
  · intro choice manager hPre
    obtain ⟨response, later, hEq, hResult, hAdvances, hPost⟩ := hAnswer choice manager hPre
    rw [hEq]
    exact ⟨hAdvances, response, rfl, hResult, hPost⟩
  · intro answer
    cases answer with
    | error error => exact .of_false _ fun _ hPre => by simp at hPre
    | ok response =>
        by_cases hResult : response.result = 0
        · simp only [hResult, ne_eq, not_true_eq_false, ↓reduceIte]
          refine .done ?_
          rintro manager ⟨same, hSame, _, hPost⟩
          cases hSame
          exact ⟨_, rfl, hPost⟩
        · refine .of_false _ ?_
          rintro manager ⟨same, hSame, hZero, _⟩
          cases hSame
          exact hResult hZero

section Calls

variable (texts) (hName : PlainName name)
include hName

theorem outline_linkExists :
    Program.Outline (reachable texts) (Advances name)
      (fun result manager => ∃ found, result = .ok found ∧
        (Underway name start manager ∧ (found = true → Present name manager)))
      (IPCManager.linkExists (.ofString name)) (Underway name start) := by
  refine outline_ensureInitialized stable_underway (outline_requestOnly ?_ ?_)
  · rintro response before after hAdvances ⟨hUnderway, hFound⟩
    exact ⟨hAdvances.underway start hUnderway, fun hExists => hAdvances.present (hFound hExists)⟩
  · intro choice manager hUnderway
    refine ⟨_, _, reachable_exists texts choice manager _, rfl, .of_kernel rfl, ?_⟩
    rw [hName.read_take]
    exact ⟨⟨hUnderway.others, hUnderway.kind⟩, fun hExists => hExists⟩

theorem outline_createVcan :
    Program.Outline (reachable texts) (Advances name)
      (fun result manager => ∃ done, result = .ok done ∧
        (Underway name start manager ∧ Present name manager))
      (IPCManager.createVcan (.ofString name)) (Underway name start) := by
  refine outline_ensureInitialized stable_underway (outline_requestOnly ?_ ?_)
  · intro _
    exact stable_present
  · intro choice manager hUnderway
    obtain ⟨response, later, hEq, hResult, hCreated⟩ :=
      reachable_create texts choice manager hName hName.read_take
    refine ⟨response, later, hEq, hResult, ?_⟩
    rcases hCreated with ⟨hKernel, hPresent⟩ | ⟨hNone, index, hLinks⟩
    · have hAdvances : Advances name manager later := .of_kernel hKernel
      exact ⟨hAdvances, hAdvances.underway start hUnderway, hAdvances.present hPresent⟩
    · obtain ⟨hAdvances, hPresent⟩ := advances_create hNone hLinks
      exact ⟨hAdvances, hAdvances.underway start hUnderway, hPresent⟩

theorem outline_ensureLink :
    Program.Outline (reachable texts) (Advances name)
      (fun result manager => ∃ done, result = .ok done ∧
        (Underway name start manager ∧ Present name manager))
      (Interface.ensureLink .vcan name) (Underway name start) := by
  refine (outline_linkExists texts hName).bind fun result => ?_
  cases result with
  | error error => exact .of_false _ fun _ hPre => by simp at hPre
  | ok found =>
      cases found with
      | true =>
          refine .done ?_
          rintro manager ⟨found, hSame, hUnderway, hPresent⟩
          cases hSame
          exact ⟨(), rfl, hUnderway, hPresent rfl⟩
      | false =>
          refine (outline_createVcan texts hName).weaken ?_
          rintro manager ⟨_, _, hUnderway, _⟩
          exact hUnderway

variable (hPrefix : ¬HasCanPrefix name)
include hPrefix

theorem outline_set (bitrate : UInt32) :
    Program.Outline (reachable texts) (Advances name)
      (fun result manager => result = .ok () ∧ Underway name start manager ∧ IsUp name manager)
      (IPCManager.set (.ofString name) true bitrate)
      (fun manager => Underway name start manager ∧ Present name manager) := by
  have hView : (StringView.ofString name).startsWith (ascii "can") = false :=
    Bool.eq_false_of_not_eq_true hPrefix
  refine outline_ensureInitialized stable_present ?_
  refine .ask (fun answer manager => ∃ response, answer = .ok response ∧ response.result = 0 ∧
    Underway name start manager ∧ IsUp name manager) ?_ ?_ ?_
  · rintro answer before after hAdvances ⟨response, hOk, hResult, hHolds⟩
    exact ⟨response, hOk, hResult, stable_isUp before after hAdvances hHolds⟩
  · rintro choice manager ⟨hUnderway, hPresent⟩
    obtain ⟨link, hLink⟩ := Option.isSome_iff_exists.mp hPresent
    obtain ⟨response, later, hEq, hResult, hUp, hOthers⟩ :=
      reachable_setUp texts choice manager bitrate hName.read_take hView hLink
    obtain ⟨hAdvances, hIsUp⟩ := advances_setUp hLink hUp hOthers
    rw [hEq]
    exact ⟨hAdvances, response, rfl, hResult, hAdvances.underway start hUnderway, hIsUp⟩
  · intro answer
    cases answer with
    | error error => exact .of_false _ fun _ hPre => by simp at hPre
    | ok response =>
        by_cases hResult : response.result = 0
        · simp only [hResult, ne_eq, not_true_eq_false, ↓reduceIte]
          exact .done fun manager ⟨_, _, _, hHolds⟩ => ⟨rfl, hHolds⟩
        · refine .of_false _ ?_
          rintro manager ⟨same, hSame, hZero, _⟩
          cases hSame
          exact hResult hZero

/-- The whole of `up` as far as the link is concerned. -/
theorem outline_linkUp (bitrate : UInt32) :
    Program.Outline (reachable texts) (Advances name)
      (fun result manager => result = .ok () ∧ Underway name start manager ∧ IsUp name manager)
      (Interface.linkUp .vcan name bitrate) (Underway name start) := by
  refine (outline_ensureLink texts hName).bind fun result => ?_
  cases result with
  | error error => exact .of_false _ fun _ hPre => by simp at hPre
  | ok done =>
      refine (outline_set texts hName hPrefix bitrate).weaken ?_
      rintro manager ⟨_, _, hHolds⟩
      exact hHolds

end Calls

section Prefix

variable {link : Link} (bitrate : UInt32)

/-- With a reachable daemon, `set` succeeds exactly if the daemon reports success. -/
theorem run_set_eq_ok_iff (view : StringView) (up : Bool) (choices : Nat → KernelChoice) :
    ((IPCManager.set view up bitrate).run (reachable texts) choices manager).1 = .ok () ↔
      (manager.processRequest texts (NetlinkClient.stateRequest view up bitrate) (choices 1).after
        ((choices 1).faults manager.kernel)).1.result = 0 := by
  simp only [IPCManager.set, IPCManager.ensureInitialized, NetlinkClient.setInterfaceState,
    Program.run, reachable]
  by_cases hResult : (manager.processRequest texts (NetlinkClient.stateRequest view up bitrate)
      (choices 1).after ((choices 1).faults manager.kernel)).1.result = 0
  · simp [hResult, Program.run]
  · simp [hResult, Program.run]

/-- With the prefix, the client asks for a bitrate, and a vcan link has none. -/
theorem set_failed (hName : PlainName name) (hPrefix : HasCanPrefix name)
    (hLink : manager.kernel.byName name = some link) (hKind : link.kind ≠ .can)
    (choices : Nat → KernelChoice) :
    ((IPCManager.set (.ofString name) true bitrate).run (reachable texts) choices manager).1 ≠ .ok () := by
  rw [Ne, run_set_eq_ok_iff]
  have hRequest : (NetlinkClient.stateRequest (.ofString name) true bitrate).setBitrate = true :=
    NetlinkClient.setBitrate_stateRequest.mpr ⟨hPrefix, rfl⟩
  have hSet := setOutcome_stateRequest texts manager hName.read_take true bitrate (choices 1).after
    ((choices 1).faults manager.kernel)
  exact hSet.failed_of_not_can ⟨rfl, hRequest⟩ hPrefix hLink hKind

/-- Without it, the bitrate makes no difference to the request's handling. -/
theorem run_set_congr (view : StringView) (hPrefix : view.startsWith (ascii "can") = false)
    (rate other : UInt32) (choices : Nat → KernelChoice) :
    (IPCManager.set view true rate).run (reachable texts) choices manager =
      (IPCManager.set view true other).run (reachable texts) choices manager := by
  have hMade (k : Nat) : reachable texts .makeClient (choices k) manager = (none, manager) := rfl
  simp only [IPCManager.set, IPCManager.ensureInitialized, NetlinkClient.setInterfaceState,
    Program.run, hMade, reachable_setUp_eq texts _ _ hPrefix]

end Prefix

/-- The link part of `up` succeeds, leaves a vcan link of the name up, and does all of
it in the same way with any other bitrate. -/
structure IgnoresBitrate (texts : ErrorTexts) (name : List UInt8) (choices : Nat → KernelChoice)
    (manager : NetlinkManager) (bitrate : UInt32) : Prop where
  succeeds : ((Interface.linkUp .vcan name bitrate).run (reachable texts) choices manager).1 = .ok ()
  link : ∃ link,
    ((Interface.linkUp .vcan name bitrate).run (reachable texts) choices manager).2.kernel.byName
      name = some link ∧ link.kind = .vcan ∧ link.up = true
  same : ∀ other, (Interface.linkUp .vcan name other).run (reachable texts) choices manager =
    (Interface.linkUp .vcan name bitrate).run (reachable texts) choices manager

/-- The state that `ensureLink` leaves to `set`. -/
theorem run_ensureLink (texts : ErrorTexts) (hName : PlainName name) (choices : Nat → KernelChoice)
    (hKind : ∀ link, manager.kernel.byName name = some link → link.kind = .vcan) :
    ((Interface.ensureLink .vcan name).run (reachable texts) choices manager).1 = .ok () ∧
      ∃ link, ((Interface.ensureLink .vcan name).run (reachable texts) choices
        manager).2.kernel.byName name = some link ∧ link.kind = .vcan := by
  have hUnderway : Underway name manager.kernel manager := ⟨fun _ _ => Iff.rfl, hKind⟩
  obtain ⟨done, hOk, hAfter, hPresent⟩ := (outline_ensureLink texts hName).run choices hUnderway
  obtain ⟨link, hLink⟩ := Option.isSome_iff_exists.mp hPresent
  exact ⟨hOk, link, hLink, hAfter.kind link hLink⟩

/-- Virtual interfaces ignore the bitrate, except those that are called like CAN
interfaces. -/
theorem ignores_bitrate_iff (hName : PlainName name) (choices : Nat → KernelChoice)
    (hKind : ∀ link, manager.kernel.byName name = some link → link.kind = .vcan)
    (bitrate : UInt32) :
    IgnoresBitrate texts name choices manager bitrate ↔ ¬HasCanPrefix name := by
  obtain ⟨hOk, link, hLink, hVcan⟩ := run_ensureLink texts hName choices hKind
  obtain ⟨used, hRest⟩ := Program.run_bind (Except Error Unit) (reachable texts)
    (Interface.ensureLink .vcan name) choices manager
  have hRun (rate : UInt32) :
      (Interface.linkUp .vcan name rate).run (reachable texts) choices manager =
        (IPCManager.set (.ofString name) true rate).run (reachable texts) (fun k => choices (k + used))
          ((Interface.ensureLink .vcan name).run (reachable texts) choices manager).2 := by
    refine (hRest _).trans ?_
    rw [hOk]
  constructor
  · intro h hPrefix
    have hSucceeds := h.succeeds
    rw [hRun] at hSucceeds
    exact set_failed bitrate hName hPrefix hLink (by simp [hVcan]) _ hSucceeds
  · intro hPrefix
    have hUnderway : Underway name manager.kernel manager := ⟨fun _ _ => Iff.rfl, hKind⟩
    obtain ⟨hSucceeds, hAfter, up, hUp, hIsUp⟩ :=
      (outline_linkUp texts hName hPrefix bitrate).run choices hUnderway
    refine ⟨hSucceeds, ⟨up, hUp, hAfter.kind up hUp, hIsUp⟩, fun other => ?_⟩
    rw [hRun, hRun]
    exact run_set_congr (.ofString name) (Bool.eq_false_of_not_eq_true hPrefix) other bitrate _

/-- A name as in the tests, on a host without links. -/
theorem ignores_bitrate_vcan_test :
    IgnoresBitrate ⟨fun _ => [], fun _ => []⟩ (ascii "vcan_test") (fun _ => ⟨[], 1, 0⟩) ⟨.empty, []⟩
        500000 ↔ ¬HasCanPrefix (ascii "vcan_test") :=
  ignores_bitrate_iff (by decide +kernel) (fun _ => ⟨[], 1, 0⟩)
    (fun link hLink => by simp [LinkTable.byName, LinkTable.empty] at hLink) 500000

/-- A vcan interface by the name of `can0` is created, and then fails to come up. -/
theorem bitrate_asked_of_vcan :
    ¬∀ (texts : ErrorTexts) (name : List UInt8) (choices : Nat → KernelChoice)
        (manager : NetlinkManager) (bitrate : UInt32), PlainName name →
      (∀ link, manager.kernel.byName name = some link → link.kind = .vcan) →
        IgnoresBitrate texts name choices manager bitrate := by
  intro hClaim
  have hIgnored := hClaim ⟨fun _ => [], fun _ => []⟩ (ascii "can0") (fun _ => ⟨[], 1, 0⟩)
    ⟨.empty, []⟩ 500000 (by decide +kernel)
    fun link hLink => by simp [LinkTable.byName, LinkTable.empty] at hLink
  have hFailed : ((Interface.linkUp .vcan (ascii "can0") 500000).run
      (reachable ⟨fun _ => [], fun _ => []⟩) (fun _ => ⟨[], 1, 0⟩) ⟨.empty, []⟩).1.isOk = false := by
    decide +kernel
  rw [hIgnored.succeeds] at hFailed
  exact absurd hFailed (by decide)

end HyCAN.VirtualUp
