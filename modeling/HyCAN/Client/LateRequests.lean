import HyCAN.Client.Reachable
import HyCAN.Transition.Machine

/-! One client thread that sets the state of an interface, call after call, and the
worker of its session. A request that the client no longer waits for stays in the queue,
and the worker handles it later. The step that answers the last question of a call also
ends the call: what follows in the function touches nothing that the worker sees. -/
namespace HyCAN

open NetlinkManager Transition

/-- A connection of the client to its channel, with the request that was sent on it. -/
structure QueuedRequest where
  connection : Nat
  request : NetlinkRequest

/-- Once the request is sent, `connection` is the one on which the response is awaited. -/
structure StateCall where
  up : Bool
  program : ClientProgram (Except Error Unit)
  connection : Option Nat
  response : Option NetlinkResponse

/-- The listening socket hands the connections out in the order in which they were made.
`last` is the state that the last call has set, if it returned success. -/
structure LateRequests where
  manager : NetlinkManager
  queue : List QueuedRequest
  nextConnection : Nat
  call : Option StateCall
  last : Option Bool

structure CommandFault where
  /-- The value of a shell that does not get as far as `ip`. -/
  shell : Option Nat
  rules : KernelRules

namespace LateRequests

inductive Action where
  | call (up : Bool) (bitrate : UInt32)
  | send
  | receive
  /-- `send_request` returns an error: it could not connect or send, or no response
  came in time. -/
  | fail (error : Error)
  | command (fault : CommandFault)
  | handle (after : List UInt8) (faults : RequestFaults)
  /-- The worker closes a connection that it has not read the request of. -/
  | drop

/-- What the daemon does by itself. -/
def Action.OfDaemon : Action → Prop
  | .handle _ _ | .drop => True
  | _ => False

def runCommand (fault : CommandFault) (kernel : LinkTable) (command : IpCommand) : Int × LinkTable :=
  match fault.shell with
  | some code => (code + 1, kernel)
  | none => command.run fault.rules kernel

/-- The call goes on, or returns. -/
def advance (system : LateRequests) (up : Bool) : ClientProgram (Except Error Unit) → LateRequests
  | .done (.ok ()) => { system with call := none, last := some up }
  | .done (.error _) => { system with call := none, last := none }
  | program => { system with call := some ⟨up, program, none, none⟩ }

/-- The response goes to the client only on the connection of the request. -/
def respond (call : StateCall) (connection : Nat) (response : NetlinkResponse) : StateCall :=
  if call.connection = some connection then { call with response := some response } else call

variable (texts : ErrorTexts) (name : List UInt8)

def step (system : LateRequests) : Action → Option LateRequests
  | .call up bitrate =>
    match system.call with
    | some _ => none
    | none => some { system with
        call := some ⟨up, NetlinkClient.setInterfaceState (.ofString name) up bitrate, none, none⟩ }
  | .send =>
    match system.call with
    | some ⟨up, .ask (.sendRequest request) next, none, response⟩ => some { system with
        queue := system.queue ++ [⟨system.nextConnection, request⟩]
        nextConnection := system.nextConnection + 1
        call := some ⟨up, .ask (.sendRequest request) next, some system.nextConnection, response⟩ }
    | _ => none
  | .receive =>
    match system.call with
    | some ⟨up, .ask (.sendRequest _) next, some _, some response⟩ =>
      some (system.advance up (next (.ok response)))
    | _ => none
  | .fail error =>
    match system.call with
    | some ⟨up, .ask (.sendRequest _) next, _, _⟩ => some (system.advance up (next (.error error)))
    | _ => none
  | .command fault =>
    match system.call with
    | some ⟨up, .ask (.system command) next, _, _⟩ =>
      let done := runCommand fault system.manager.kernel command
      some (advance { system with manager := { system.manager with kernel := done.2 } } up (next done.1))
    | _ => none
  | .handle after faults =>
    match system.queue with
    | [] => none
    | head :: rest =>
      let handled := system.manager.processRequest texts head.request after faults
      some { system with
        manager := handled.2
        queue := rest
        call := system.call.map (respond · head.connection handled.1) }
  | .drop =>
    match system.queue with
    | [] => none
    | _ :: rest => some { system with queue := rest }

def machine : Machine LateRequests Action := ⟨step texts name⟩

def start (manager : NetlinkManager) : LateRequests where
  manager := manager
  queue := []
  nextConnection := 0
  call := none
  last := none

/-- The link of the interface is there, and in that state. -/
def LinkIs (system : LateRequests) (up : Bool) : Prop :=
  ∃ link, system.manager.kernel.byName name = some link ∧ link.up = up

/-- Between two calls, the link is as the last successful call has set it, and stays so
whatever the daemon does. -/
def LastDecides (system : LateRequests) : Prop :=
  system.call = none → ∀ up, system.last = some up →
    ∀ actions after, (∀ action ∈ actions, Action.OfDaemon action) →
      (machine texts name).run system actions = some after → after.LinkIs name up

/-- The action makes a call return success with the link set to that state. -/
def Returns (system : LateRequests) (action : Action) (up : Bool) : Prop :=
  system.call.isSome = true ∧
    ∃ after, step texts name system action = some after ∧ after.call = none ∧ after.last = some up

/-- A request that leaves a link of that kind in that state, whatever becomes of it. One
for a bitrate takes the link down first and may then fail. -/
def Harmless (kind : LinkKind) (up : Bool) (request : NetlinkRequest) : Prop :=
  if request.up = true ∧ request.setBitrate = true then up = false ∧ kind ≠ .can else request.up = up

/-- No call returns success while a request is queued that could still change the link. -/
def NoneOutlives (system : LateRequests) (action : Action) : Prop :=
  ∀ up link, Returns texts name system action up → system.manager.kernel.byName name = some link →
    ∀ queued ∈ system.queue, Harmless link.kind up queued.request

section Requests

variable {name} (manager : NetlinkManager) (hValid : ValidLinkName name) {up : Bool} {bitrate : UInt32}

include hValid in
theorem not_mem_zero : 0 ∉ name :=
  fun hMem => hValid.2.2.2.2 0 hMem (by decide)

include hValid in
theorem take_read_of_valid : (CString.read (StringView.ofString name).data).take (ifNameSize - 1) = name :=
  StringView.take_read_ofString (not_mem_zero hValid) hValid.2.1

/-- Only a name with the prefix has a bitrate in its requests. -/
theorem hasCanPrefix_of_setBitrate
    (h : (NetlinkClient.stateRequest (.ofString name) up bitrate).setBitrate = true) :
    HasCanPrefix name :=
  (NetlinkClient.setBitrate_stateRequest.mp h).1

variable {manager}
include hValid

theorem kernel_of_harmless {link : Link} (hLink : manager.kernel.byName name = some link)
    (hHarmless : Harmless link.kind link.up (NetlinkClient.stateRequest (.ofString name) up bitrate))
    (memory : List UInt8) (faults : RequestFaults) :
    (manager.processRequest texts (NetlinkClient.stateRequest (.ofString name) up bitrate) memory
      faults).2.kernel = manager.kernel := by
  have hOutcome := setOutcome_stateRequest texts manager (take_read_of_valid hValid) up bitrate memory faults
  unfold Harmless at hHarmless
  split_ifs at hHarmless with hBitrate
  · exact hOutcome.kept_of_not_can hBitrate (hasCanPrefix_of_setBitrate hBitrate.2) hLink
      hHarmless.2 hHarmless.1
  · cases hOutcome with
    | plain _ hFinal => exact hFinal.kernel_of_already hLink hHarmless.symm
    | checkFailed hBoth | downFailed hBoth | bitrateFailed hBoth | finished hBoth =>
        exact absurd hBoth hBitrate

/-- Faults that stop a request after the link has been taken down. -/
def cutShort : RequestFaults :=
  { noFaults with final := ⟨.refused, false, none, .ok⟩ }

theorem exists_harm {link : Link} (hLink : manager.kernel.byName name = some link)
    (hHarm : ¬Harmless link.kind link.up (NetlinkClient.stateRequest (.ofString name) up bitrate)) :
    ∃ faults left, (manager.processRequest texts (NetlinkClient.stateRequest (.ofString name) up bitrate) []
      faults).2.kernel.byName name = some left ∧ left.up ≠ link.up := by
  unfold Harmless at hHarm
  split_ifs at hHarm with hBitrate
  · cases hUp : link.up with
    | true =>
        have hOutcome := setOutcome_stateRequest texts manager (take_read_of_valid hValid) up bitrate [] cutShort
        rcases hOutcome.low_or_finished hBitrate rfl hLink hUp (by decide) with
          ⟨left, hLeft, hLow⟩ | ⟨hApplies, _⟩
        · exact ⟨cutShort, left, hLeft, by simp [hLow]⟩
        · exact absurd hApplies (by decide)
    | false =>
        have hKind : link.kind = .can := by
          by_contra hNe
          exact hHarm ⟨hUp, hNe⟩
        have hOutcome := setOutcome_stateRequest texts manager (take_read_of_valid hValid) up bitrate [] noFaults
        have hResult := processSetInterfaceState_succeeds texts
          (NetlinkClient.stateRequest (.ofString name) up bitrate) noFaults.create hLink hKind hUp
        have hSame := processRequest_stateRequest texts manager (take_read_of_valid hValid) up bitrate []
          noFaults
        obtain ⟨left, hLeft, hState, _⟩ := hOutcome.success (by rw [hSame]; exact hResult)
        refine ⟨noFaults, left, hLeft, ?_⟩
        rw [hState, hBitrate.1]
        decide
  · have hOutcome := setOutcome_stateRequest texts manager (take_read_of_valid hValid) up bitrate [] noFaults
    cases hOutcome with
    | plain _ hFinal =>
        have hLeft := hFinal.byName hLink
        rw [if_pos (by decide)] at hLeft
        exact ⟨noFaults, _, hLeft, hHarm⟩
    | checkFailed hBoth | downFailed hBoth | bitrateFailed hBoth | finished hBoth =>
        exact absurd hBoth hBitrate

end Requests

/-- Where a call can be. A response that is there answers the request of the call, which
was the last in the queue. -/
inductive CallStage (system : LateRequests) : StateCall → Prop where
  | unsent (up : Bool) (bitrate : UInt32) : CallStage system
      ⟨up, NetlinkClient.setInterfaceState (.ofString name) up bitrate, none, none⟩
  | awaiting (up : Bool) (bitrate : UInt32) (connection : Nat) (response : Option NetlinkResponse)
      (hNewest : connection + 1 = system.nextConnection)
      (hRequest : ∀ queued ∈ system.queue, queued.connection = connection →
        queued.request = NetlinkClient.stateRequest (.ofString name) up bitrate)
      (hAnswered : ∀ answer, response = some answer → system.queue = [] ∧
        (answer.result = 0 → system.LinkIs name up)) : CallStage system
      ⟨up, NetlinkClient.setInterfaceState (.ofString name) up bitrate, some connection, response⟩
  | commands (up : Bool) (bitrate : UInt32) : CallStage system
      ⟨up, NetlinkClient.fallbackSystemCall (.ofString name) up bitrate, none, none⟩
  | lastCommand (up : Bool) : CallStage system
      ⟨up, NetlinkClient.fallbackState (.ofString name) up, none, none⟩

structure Consistent (system : LateRequests) : Prop where
  ordered : (system.queue.map QueuedRequest.connection).Pairwise (· < ·)
  issued : ∀ queued ∈ system.queue, queued.connection < system.nextConnection
  requests : ∀ queued ∈ system.queue, ∃ up bitrate,
    queued.request = NetlinkClient.stateRequest (.ofString name) up bitrate
  stage : ∀ call, system.call = some call → CallStage name system call

theorem consistent_start (manager : NetlinkManager) : Consistent name (start manager) where
  ordered := .nil
  issued := by simp [start]
  requests := by simp [start]
  stage := by simp [start]

section Stages

variable {name} {system after : LateRequests} {up : Bool} {connection : Option Nat}
  {response : Option NetlinkResponse}

/-- The call at its request. -/
theorem CallStage.request {request : NetlinkRequest}
    {next : Except Error NetlinkResponse → ClientProgram (Except Error Unit)}
    (h : CallStage name system ⟨up, .ask (.sendRequest request) next, connection, response⟩) :
    ∃ bitrate, .ask (.sendRequest request) next =
        NetlinkClient.setInterfaceState (.ofString name) up bitrate ∧
      request = NetlinkClient.stateRequest (.ofString name) up bitrate ∧
      (∀ error, next (.error error) = NetlinkClient.fallbackSystemCall (.ofString name) up bitrate) ∧
      (∀ answer, ∃ error, next (.ok answer) =
        if answer.result ≠ 0 then .done (.error error) else .done (.ok ())) ∧
      (connection = none → response = none) ∧
      ∀ answer, response = some answer → system.queue = [] ∧ (answer.result = 0 → system.LinkIs name up) := by
  generalize hProgram : (.ask (ClientCall.sendRequest request) next : ClientProgram _) = program at h
  cases h with
  | unsent up bitrate =>
      cases hProgram
      exact ⟨bitrate, rfl, rfl, fun _ => rfl, fun answer => ⟨_, rfl⟩, fun _ => rfl, fun _ hSome => by cases hSome⟩
  | awaiting up bitrate connection response _ _ hAnswered =>
      cases hProgram
      exact ⟨bitrate, rfl, rfl, fun _ => rfl, fun answer => ⟨_, rfl⟩, (fun hNone => by cases hNone),
        hAnswered⟩
  | commands up bitrate =>
      unfold NetlinkClient.fallbackSystemCall at hProgram
      split_ifs at hProgram <;> cases hProgram
  | lastCommand => cases hProgram

/-- The call at one of its commands. -/
theorem CallStage.command {command : IpCommand} {next : Int → ClientProgram (Except Error Unit)}
    (h : CallStage name system ⟨up, .ask (.system command) next, connection, response⟩) :
    command.name = name ∧ ((∃ error : Int → Error, ∀ result, next result =
        if result ≠ 0 then .done (.error (error result)) else NetlinkClient.fallbackState (.ofString name) up) ∨
      command = .state name up ∧ ∃ error : Int → Error, ∀ result, next result =
        if result ≠ 0 then .done (.error (error result)) else .done (.ok ())) := by
  generalize hProgram : (.ask (ClientCall.system command) next : ClientProgram _) = program at h
  cases h with
  | unsent | awaiting => cases hProgram
  | commands up bitrate =>
      unfold NetlinkClient.fallbackSystemCall at hProgram
      split_ifs at hProgram
      · cases hProgram
        exact ⟨rfl, .inl ⟨_, fun result => rfl⟩⟩
      · cases hProgram
        exact ⟨rfl, .inr ⟨rfl, _, fun result => rfl⟩⟩
  | lastCommand =>
      cases hProgram
      exact ⟨rfl, .inr ⟨rfl, _, fun result => rfl⟩⟩

theorem advance_fallbackState (system : LateRequests) (up : Bool) :
    system.advance up (NetlinkClient.fallbackState (.ofString name) up) =
      { system with call := some ⟨up, NetlinkClient.fallbackState (.ofString name) up, none, none⟩ } := rfl

theorem advance_fallbackSystemCall (system : LateRequests) (up : Bool) (bitrate : UInt32) :
    system.advance up (NetlinkClient.fallbackSystemCall (.ofString name) up bitrate) =
      { system with
        call := some ⟨up, NetlinkClient.fallbackSystemCall (.ofString name) up bitrate, none, none⟩ } := by
  unfold NetlinkClient.fallbackSystemCall
  split_ifs <;> rfl

/-- Only the queue and the call matter. -/
theorem Consistent.of_call (h : Consistent name system) {manager : NetlinkManager} {call : Option StateCall}
    {last : Option Bool}
    (hStage : ∀ current, call = some current →
      CallStage name { system with manager, call, last } current) :
    Consistent name { system with manager, call, last } :=
  ⟨h.ordered, h.issued, h.requests, hStage⟩

theorem Consistent.advance_done (h : Consistent name system) (manager : NetlinkManager) (up : Bool)
    (result : Except Error Unit) :
    Consistent name (advance { system with manager } up (.done result)) := by
  cases result <;> exact h.of_call (fun _ hSome => by cases hSome)

/-- A response, if it comes, is that to the newest request, and nothing is queued behind. -/
theorem Consistent.handle {head : QueuedRequest} {rest : List QueuedRequest} (hValid : ValidLinkName name)
    (h : Consistent name system) (hQueue : system.queue = head :: rest) (memory : List UInt8)
    (faults : RequestFaults) :
    let handled := system.manager.processRequest texts head.request memory faults
    Consistent name { system with
      manager := handled.2
      queue := rest
      call := system.call.map (respond · head.connection handled.1) } := by
  intro handled
  have hMem : ∀ queued ∈ rest, queued ∈ system.queue := fun queued hRest => by simp [hQueue, hRest]
  have hOrdered := h.ordered
  rw [hQueue, List.map_cons, List.pairwise_cons] at hOrdered
  obtain ⟨hBehind, hRest⟩ := hOrdered
  refine ⟨hRest, fun queued hQueued => h.issued queued (hMem queued hQueued),
    fun queued hQueued => h.requests queued (hMem queued hQueued), ?_⟩
  intro current hCurrent
  obtain ⟨call, hCall, rfl⟩ := Option.map_eq_some_iff.mp hCurrent
  have hStage := h.stage call hCall
  cases hStage with
  | unsent up bitrate => exact .unsent up bitrate
  | commands up bitrate => exact .commands up bitrate
  | lastCommand up => exact .lastCommand up
  | awaiting up bitrate connection response hNewest hRequest hAnswered =>
      have hNone : response = none := by
        by_contra hSome
        obtain ⟨answer, hAnswer⟩ := Option.ne_none_iff_exists'.mp hSome
        simpa [hQueue] using (hAnswered answer hAnswer).1
      have hLater : ∀ queued ∈ rest, queued.connection = connection →
          queued.request = NetlinkClient.stateRequest (.ofString name) up bitrate :=
        fun queued hQueued => hRequest queued (hMem queued hQueued)
      subst hNone
      unfold respond
      dsimp only
      split_ifs with hSame
      · obtain rfl := Option.some.inj hSame
        have hHead := hRequest head (by simp [hQueue]) rfl
        refine .awaiting up bitrate head.connection (some handled.1) hNewest hLater fun answer hAnswer => ?_
        obtain rfl := Option.some.inj hAnswer
        refine ⟨?_, fun hResult => ?_⟩
        · rw [List.eq_nil_iff_forall_not_mem]
          intro queued hQueued
          have hAbove := hBehind queued.connection (List.mem_map_of_mem hQueued)
          have hBelow := h.issued queued (hMem queued hQueued)
          omega
        · have hOutcome := setOutcome_stateRequest texts system.manager (take_read_of_valid hValid) up bitrate
            memory faults
          rw [← hHead] at hOutcome
          obtain ⟨link, hLink, hUp, _⟩ := hOutcome.success hResult
          rw [hHead] at hUp
          exact ⟨link, hLink, hUp⟩
      · exact .awaiting up bitrate connection none hNewest hLater fun _ hSome => by cases hSome

theorem Consistent.drop {head : QueuedRequest} {rest : List QueuedRequest}
    (h : Consistent name system) (hQueue : system.queue = head :: rest) :
    Consistent name { system with queue := rest } := by
  have hMem : ∀ queued ∈ rest, queued ∈ system.queue := fun queued hRest => by simp [hQueue, hRest]
  have hOrdered := h.ordered
  rw [hQueue, List.map_cons, List.pairwise_cons] at hOrdered
  refine ⟨hOrdered.2, fun queued hQueued => h.issued queued (hMem queued hQueued),
    fun queued hQueued => h.requests queued (hMem queued hQueued), fun call hCall => ?_⟩
  cases h.stage call hCall with
  | unsent up bitrate => exact .unsent up bitrate
  | commands up bitrate => exact .commands up bitrate
  | lastCommand up => exact .lastCommand up
  | awaiting up bitrate connection response hNewest hRequest hAnswered =>
      refine .awaiting up bitrate connection response hNewest
        (fun queued hQueued => hRequest queued (hMem queued hQueued)) fun answer hAnswer => ?_
      simpa [hQueue] using (hAnswered answer hAnswer).1

/-- The new request is the last in the queue. -/
theorem Consistent.send (h : Consistent name system) (up : Bool) (bitrate : UInt32) :
    Consistent name { system with
      queue := system.queue ++ [⟨system.nextConnection, NetlinkClient.stateRequest (.ofString name) up bitrate⟩]
      nextConnection := system.nextConnection + 1
      call := some ⟨up, NetlinkClient.setInterfaceState (.ofString name) up bitrate,
        some system.nextConnection, none⟩ } where
  ordered := by
    rw [List.map_append, List.pairwise_append]
    refine ⟨h.ordered, List.pairwise_singleton _ _, ?_⟩
    intro earlier hEarlier later hLater
    obtain ⟨queued, hQueued, rfl⟩ := List.mem_map.mp hEarlier
    rw [List.map_singleton, List.mem_singleton] at hLater
    rw [hLater]
    exact h.issued queued hQueued
  issued := by
    intro queued hQueued
    rcases List.mem_append.mp hQueued with hOld | hNew
    · exact Nat.lt_succ_of_lt (h.issued queued hOld)
    · rw [List.mem_singleton.mp hNew]
      exact Nat.lt_succ_self _
  requests := by
    intro queued hQueued
    rcases List.mem_append.mp hQueued with hOld | hNew
    · exact h.requests queued hOld
    · exact ⟨up, bitrate, by rw [List.mem_singleton.mp hNew]⟩
  stage := by
    intro call hCall
    obtain rfl := Option.some.inj hCall
    refine .awaiting up bitrate _ none rfl ?_ fun _ hSome => by cases hSome
    intro queued hQueued hNumber
    rcases List.mem_append.mp hQueued with hOld | hNew
    · exact absurd hNumber (h.issued queued hOld).ne
    · rw [List.mem_singleton.mp hNew]

theorem consistent_step (hValid : ValidLinkName name) {action : Action} (h : Consistent name system)
    (hStep : step texts name system action = some after) : Consistent name after := by
  cases action with
  | call up bitrate =>
      simp only [step] at hStep
      split at hStep
      · cases hStep
      · obtain rfl := Option.some.inj hStep
        exact h.of_call fun current hSome => Option.some.inj hSome ▸ .unsent up bitrate
  | send =>
      simp only [step] at hStep
      split at hStep
      next up request next response hCall =>
        obtain rfl := Option.some.inj hStep
        obtain ⟨bitrate, hProgram, hRequest, _, _, hNone, _⟩ := (h.stage _ hCall).request
        rw [hProgram, hRequest, hNone rfl]
        exact h.send up bitrate
      · cases hStep
  | receive =>
      simp only [step] at hStep
      split at hStep
      next up request next connection response hCall =>
        obtain rfl := Option.some.inj hStep
        obtain ⟨_, _, _, _, hAnswer, _⟩ := (h.stage _ hCall).request
        obtain ⟨error, hNext⟩ := hAnswer response
        rw [hNext]
        split_ifs <;> exact h.advance_done system.manager up _
      · cases hStep
  | fail error =>
      simp only [step] at hStep
      split at hStep
      next up request next connection response hCall =>
        obtain rfl := Option.some.inj hStep
        obtain ⟨bitrate, _, _, hError, _⟩ := (h.stage _ hCall).request
        rw [hError, advance_fallbackSystemCall]
        exact h.of_call fun current hSome => Option.some.inj hSome ▸ .commands up bitrate
      · cases hStep
  | command fault =>
      simp only [step] at hStep
      split at hStep
      next up command next connection response hCall =>
        obtain rfl := Option.some.inj hStep
        obtain ⟨_, ⟨error, hNext⟩ | ⟨_, error, hNext⟩⟩ := (h.stage _ hCall).command
        · rw [hNext]
          split_ifs
          · exact h.advance_done _ up _
          · rw [advance_fallbackState]
            exact h.of_call fun current hSome => Option.some.inj hSome ▸ .lastCommand up
        · rw [hNext]
          split_ifs <;> exact h.advance_done _ up _
      · cases hStep
  | handle memory faults =>
      simp only [step] at hStep
      split at hStep
      · cases hStep
      next head rest hQueue =>
        obtain rfl := Option.some.inj hStep
        exact h.handle texts hValid hQueue memory faults
  | drop =>
      simp only [step] at hStep
      split at hStep
      · cases hStep
      next head rest hQueue =>
        obtain rfl := Option.some.inj hStep
        exact h.drop hQueue

end Stages

end LateRequests
end HyCAN
