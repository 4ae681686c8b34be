import HyCAN.Client.RequestTraffic

/-! Requests and responses belong together: an invariant over all connections, whatever
their stage, and over the calls that the threads are in. -/
namespace HyCAN

open NetlinkManager Transition

namespace RequestTraffic

/-- What a connection holds at each stage. -/
inductive Sound (call : Nat) (handed : List Answered) : Connection → Prop where
  | unread (request : NetlinkRequest) (stage : Stage) (padding : List UInt8) (count : Nat)
      (hStage : stage = .queued ∨ stage = .accepted) (hFresh : call ∉ handed.map Answered.call) :
      Sound call handed ⟨request, (NetlinkRequest.layout.encode request padding).take count, [], stage⟩
  | received (request : NetlinkRequest) (toDaemon : List UInt8)
      (hFresh : call ∉ handed.map Answered.call) :
      Sound call handed ⟨request, toDaemon, [], .received request⟩
  | processed (request : NetlinkRequest) (toDaemon : List UInt8) (response : StoredResponse)
      (hHanded : ⟨call, request, response.1⟩ ∈ handed) :
      Sound call handed ⟨request, toDaemon, [], .processed response⟩
  | closed (request : NetlinkRequest) (toDaemon : List UInt8) : Sound call handed ⟨request, toDaemon, [], .closed⟩
  | answered (request : NetlinkRequest) (toDaemon : List UInt8) (response : StoredResponse)
      (padding : List UInt8) (count : Nat) (hHanded : ⟨call, request, response.1⟩ ∈ handed) :
      Sound call handed
        ⟨request, toDaemon, (NetlinkResponse.layout.encode response padding).take count, .closed⟩

/-- The connection of the call that a thread is in. -/
def ThreadSound (traffic : RequestTraffic) : ThreadPc → Prop
  | .idle => True
  | .calling call _ => traffic.connections call = none
  | .connected call request => ∃ connection, traffic.connections call = some connection ∧
      connection.request = request ∧ connection.toDaemon = []
  | .waiting call request => ∃ connection, traffic.connections call = some connection ∧
      connection.request = request

structure Invariant (texts : ErrorTexts) (traffic : RequestTraffic) : Prop where
  once : (traffic.handed.map Answered.call).Nodup
  computed : ∀ answered ∈ traffic.handed, ∃ manager memory faults,
    (processRequest texts manager answered.request memory faults).1 = answered.response
  returned : ∀ answered ∈ traffic.returned, answered ∈ traffic.handed
  known : ∀ answered ∈ traffic.handed, ∃ connection,
    traffic.connections answered.call = some connection ∧ connection.request = answered.request
  sound : ∀ call connection, traffic.connections call = some connection → Sound call traffic.handed connection
  threads : ∀ thread, traffic.ThreadSound (traffic.threads thread)
  issued : ∀ thread call, (traffic.threads thread).call = some call → call < traffic.nextCall
  made : ∀ call connection, traffic.connections call = some connection → call < traffic.nextCall
  distinct : ∀ thread other call, (traffic.threads thread).call = some call →
    (traffic.threads other).call = some call → thread = other

variable {texts : ErrorTexts} {traffic after : RequestTraffic}

theorem invariant_start (manager : NetlinkManager) : Invariant texts (start manager) where
  once := List.nodup_nil
  computed := by simp [start]
  returned := by simp [start]
  known := by simp [start]
  sound := by simp [start]
  threads := fun _ => trivial
  issued := by simp [start, ThreadPc.call]
  made := by simp [start]
  distinct := by simp [start, ThreadPc.call]

/-- A call that is not handed again keeps what its connection holds. -/
theorem Sound.of_handed {call : Nat} {handed : List Answered} {connection : Connection} {answered : Answered}
    (h : Sound call handed connection) (hNe : call ≠ answered.call) :
    Sound call (handed ++ [answered]) connection := by
  have hFresh (hNone : call ∉ handed.map Answered.call) : call ∉ (handed ++ [answered]).map Answered.call := by
    simp [List.map_append, hNe]
    simpa using hNone
  cases h with
  | unread request stage padding count hStage hNone =>
      exact .unread request stage padding count hStage (hFresh hNone)
  | received request toDaemon hNone => exact .received request toDaemon (hFresh hNone)
  | processed request toDaemon response hHanded =>
      exact .processed request toDaemon response (List.mem_append_left _ hHanded)
  | closed request toDaemon => exact .closed request toDaemon
  | answered request toDaemon response padding count hHanded =>
      exact .answered request toDaemon response padding count (List.mem_append_left _ hHanded)

/-- The daemon's end closes a connection that it has not answered. -/
theorem Sound.close {call : Nat} {handed : List Answered} {connection : Connection}
    (h : Sound call handed connection) : Sound call handed { connection with stage := .closed } := by
  cases h with
  | unread request => exact .closed request _
  | received request => exact .closed request _
  | processed request => exact .closed request _
  | closed request => exact .closed request _
  | answered request toDaemon response padding count hHanded =>
      exact .answered request toDaemon response padding count hHanded

/-- A connection that is there stays there, changed or not. -/
theorem exists_setConnection {other : Nat} {found : Connection} (call : Nat) (changed : Connection)
    (hFound : traffic.connections other = some found) :
    ∃ left, (traffic.setConnection call changed).connections other = some left ∧
      (other = call ∧ left = changed ∨ left = found) := by
  by_cases hCall : other = call
  · subst hCall
    exact ⟨changed, connections_setConnection_self _ _, .inl ⟨rfl, rfl⟩⟩
  · exact ⟨found, (connections_setConnection_of_ne _ _ hCall).trans hFound, .inr rfl⟩

/-- One connection changes, or is new; the caller's request stays as it is. -/
theorem Invariant.setConnection {call : Nat} {changed : Connection} (h : Invariant texts traffic)
    (hIssued : call < traffic.nextCall) (hSound : Sound call traffic.handed changed)
    (hRequest : ∀ connection, traffic.connections call = some connection →
      changed.request = connection.request)
    (hCalling : ∀ thread request, traffic.threads thread ≠ .calling call request)
    (hUnsent : ∀ thread request, traffic.threads thread = .connected call request → changed.toDaemon = []) :
    Invariant texts (traffic.setConnection call changed) where
  once := h.once
  computed := h.computed
  returned := h.returned
  known := by
    intro answered hMem
    obtain ⟨found, hFound, hSame⟩ := h.known answered hMem
    obtain ⟨left, hLeft, ⟨rfl, rfl⟩ | rfl⟩ := exists_setConnection call changed hFound
    · exact ⟨_, hLeft, (hRequest found hFound).trans hSame⟩
    · exact ⟨_, hLeft, hSame⟩
  sound := by
    intro other found hFound
    by_cases hCall : other = call
    · subst hCall
      rw [connections_setConnection_self, Option.some.injEq] at hFound
      exact hFound ▸ hSound
    · exact h.sound other found ((connections_setConnection_of_ne _ _ hCall).symm.trans hFound)
  threads := by
    intro thread
    have hThread := h.threads thread
    show ThreadSound _ (traffic.threads thread)
    cases hPc : traffic.threads thread with
    | idle => trivial
    | calling other request =>
        rw [hPc] at hThread
        have hNe : other ≠ call := by
          rintro rfl
          exact hCalling thread request hPc
        exact (connections_setConnection_of_ne _ _ hNe).trans hThread
    | connected other request =>
        rw [hPc] at hThread
        obtain ⟨found, hFound, hSame, hNone⟩ := hThread
        obtain ⟨left, hLeft, ⟨rfl, rfl⟩ | rfl⟩ := exists_setConnection call changed hFound
        · exact ⟨_, hLeft, (hRequest found hFound).trans hSame, hUnsent thread request hPc⟩
        · exact ⟨_, hLeft, hSame, hNone⟩
    | waiting other request =>
        rw [hPc] at hThread
        obtain ⟨found, hFound, hSame⟩ := hThread
        obtain ⟨left, hLeft, ⟨rfl, rfl⟩ | rfl⟩ := exists_setConnection call changed hFound
        · exact ⟨_, hLeft, (hRequest found hFound).trans hSame⟩
        · exact ⟨_, hLeft, hSame⟩
  issued := h.issued
  made := by
    intro other found hFound
    by_cases hCall : other = call
    · exact hCall ▸ hIssued
    · exact h.made other found ((connections_setConnection_of_ne _ _ hCall).symm.trans hFound)
  distinct := h.distinct

section Changes

variable {call : Nat} {connection : Connection} (h : Invariant texts traffic)
  (hConnection : traffic.connections call = some connection)
include h hConnection

/-- What a connected thread has not sent is not there. -/
theorem Invariant.unsent {thread : Nat} {request : NetlinkRequest}
    (hPc : traffic.threads thread = .connected call request) : connection.toDaemon = [] := by
  have hThread := h.threads thread
  rw [hPc] at hThread
  obtain ⟨found, hFound, _, hNone⟩ := hThread
  obtain rfl := Option.some.inj (hConnection.symm.trans hFound)
  exact hNone

/-- No thread is about to make a connection that is there. -/
theorem Invariant.not_calling (thread : Nat) (request : NetlinkRequest) :
    traffic.threads thread ≠ .calling call request := by
  intro hPc
  have hThread := h.threads thread
  rw [hPc] at hThread
  cases hConnection.symm.trans hThread

/-- A step on a connection that is there. -/
theorem Invariant.change {changed : Connection} (hSound : Sound call traffic.handed changed)
    (hRequest : changed.request = connection.request)
    (hUnsent : ∀ thread request, traffic.threads thread = .connected call request → changed.toDaemon = []) :
    Invariant texts (traffic.setConnection call changed) := by
  apply h.setConnection (h.made call connection hConnection) hSound
  · intro found hFound
    obtain rfl := Option.some.inj (hConnection.symm.trans hFound)
    exact hRequest
  · exact h.not_calling hConnection
  · exact hUnsent

end Changes

/-- A thread goes on in its call, or ends it. -/
theorem Invariant.setThread {thread : Nat} {pc : ThreadPc} (h : Invariant texts traffic)
    (hSound : traffic.ThreadSound pc)
    (hCall : ∀ call, pc.call = some call → call < traffic.nextCall ∧
      ∀ other, other ≠ thread → (traffic.threads other).call ≠ some call) :
    Invariant texts (traffic.setThread thread pc) where
  once := h.once
  computed := h.computed
  returned := h.returned
  known := h.known
  sound := h.sound
  threads := by
    intro other
    by_cases hSame : other = thread
    · subst hSame
      rw [threads_setThread_self]
      exact hSound
    · rw [threads_setThread_of_ne _ _ hSame]
      exact h.threads other
  issued := by
    intro other call hOther
    by_cases hSame : other = thread
    · subst hSame
      rw [threads_setThread_self] at hOther
      exact (hCall call hOther).1
    · rw [threads_setThread_of_ne _ _ hSame] at hOther
      exact h.issued other call hOther
  made := h.made
  distinct := by
    have hOnly (other call : Nat) (hPc : pc.call = some call)
        (hOther : ((traffic.setThread thread pc).threads other).call = some call) : other = thread := by
      by_contra hNe
      rw [threads_setThread_of_ne _ _ hNe] at hOther
      exact (hCall call hPc).2 other hNe hOther
    intro first second call hFirst hSecond
    by_cases hSame : first = thread
    · subst hSame
      rw [threads_setThread_self] at hFirst
      exact (hOnly second call hFirst hSecond).symm
    · by_cases hOther : second = thread
      · subst hOther
        rw [threads_setThread_self] at hSecond
        exact hOnly first call hSecond hFirst
      · rw [threads_setThread_of_ne _ _ hSame] at hFirst
        rw [threads_setThread_of_ne _ _ hOther] at hSecond
        exact h.distinct first second call hFirst hSecond

/-- The thread stays in its call. -/
theorem Invariant.keepCall {thread : Nat} {pc : ThreadPc} (h : Invariant texts traffic)
    (hSound : traffic.ThreadSound pc)
    (hCall : ∀ call, pc.call = some call → (traffic.threads thread).call = some call) :
    Invariant texts (traffic.setThread thread pc) := by
  apply h.setThread hSound
  intro call hPc
  refine ⟨h.issued thread call (hCall call hPc), fun other hNe hOther => ?_⟩
  exact hNe (h.distinct other thread call hOther (hCall call hPc))

/-- The session table, the link table, the queues and the workers have no part in it. -/
theorem Invariant.congr (h : Invariant texts traffic) (daemon : Daemon) (manager : NetlinkManager)
    (backlog : Nat → List Nat) (worker : Nat → Option Nat) :
    Invariant texts { traffic with daemon, manager, backlog, worker } :=
  ⟨h.once, h.computed, h.returned, h.known, h.sound, h.threads, h.issued, h.made, h.distinct⟩

theorem Invariant.close {call : Nat} {connection : Connection} (h : Invariant texts traffic)
    (hConnection : traffic.connections call = some connection) (socket : Nat) :
    Invariant texts (traffic.close socket call connection) := by
  have hClosed := h.change hConnection (h.sound call connection hConnection).close rfl
    fun _ _ hPc => show connection.toDaemon = [] from h.unsent hConnection hPc
  exact hClosed.congr _ _ _ _

/-- A call gets a number that none has had. -/
theorem Invariant.newCall {thread : Nat} (h : Invariant texts traffic) (request : NetlinkRequest) :
    Invariant texts { traffic.setThread thread (.calling traffic.nextCall request) with
      nextCall := traffic.nextCall + 1 } := by
  have hMore : Invariant texts { traffic with nextCall := traffic.nextCall + 1 } :=
    ⟨h.once, h.computed, h.returned, h.known, h.sound, h.threads,
      fun other call hCall => Nat.lt_succ_of_lt (h.issued other call hCall),
      fun call connection hMade => Nat.lt_succ_of_lt (h.made call connection hMade), h.distinct⟩
  refine hMore.setThread ?_ ?_
  · show traffic.connections traffic.nextCall = none
    cases hConnection : traffic.connections traffic.nextCall with
    | none => rfl
    | some connection => exact absurd (h.made _ connection hConnection) (lt_irrefl _)
  · intro call hCall
    obtain rfl : traffic.nextCall = call := Option.some.inj hCall
    exact ⟨Nat.lt_succ_self _, fun other _ hOther => absurd (h.issued other _ hOther) (lt_irrefl _)⟩

/-- The connection of a call is new. -/
theorem Invariant.connect {thread call : Nat} {request : NetlinkRequest} (h : Invariant texts traffic)
    (hPc : traffic.threads thread = .calling call request) :
    Invariant texts ((traffic.setConnection call ⟨request, [], [], .queued⟩).setThread thread
      (.connected call request)) := by
  have hNone : traffic.connections call = none := by
    have hThread := h.threads thread
    rw [hPc] at hThread
    exact hThread
  have hOwn : (traffic.threads thread).call = some call := by rw [hPc]; rfl
  have hFresh : call ∉ traffic.handed.map Answered.call := by
    intro hMem
    obtain ⟨answered, hHanded, hCall⟩ := List.mem_map.mp hMem
    obtain ⟨connection, hFound, _⟩ := h.known answered hHanded
    rw [hCall, hNone] at hFound
    cases hFound
  have hOthers (other : Nat) (hNe : other ≠ thread) : (traffic.threads other).call ≠ some call :=
    fun hOther => hNe (h.distinct other thread call hOther hOwn)
  -- in between, the thread is in no call, and the connection belongs to none
  have hLeft : Invariant texts (traffic.setThread thread .idle) := h.setThread trivial fun _ hCall => by cases hCall
  have hNobody (other : Nat) : ((traffic.setThread thread .idle).threads other).call ≠ some call := by
    by_cases hSame : other = thread
    · subst hSame
      rw [threads_setThread_self]
      simp [ThreadPc.call]
    · rw [threads_setThread_of_ne _ _ hSame]
      exact hOthers other hSame
  have hMade : Invariant texts ((traffic.setThread thread .idle).setConnection call ⟨request, [], [], .queued⟩) := by
    apply hLeft.setConnection (h.issued thread call hOwn)
    · exact .unread request .queued [] 0 (.inl rfl) hFresh
    · intro connection hFound
      cases hNone.symm.trans hFound
    · intro other found hCalling
      exact hNobody other (by rw [hCalling]; rfl)
    · intro other found hConnected
      exact absurd (by rw [hConnected]; rfl) (hNobody other)
  have hSame : ((traffic.setThread thread .idle).setConnection call ⟨request, [], [], .queued⟩).setThread thread
      (.connected call request) =
        (traffic.setConnection call ⟨request, [], [], .queued⟩).setThread thread (.connected call request) := by
    simp only [RequestTraffic.setThread, RequestTraffic.setConnection, Function.update_idem]
  rw [← hSame]
  refine hMade.setThread ⟨_, connections_setConnection_self _ _, rfl, rfl⟩ ?_
  intro found hCall
  obtain rfl := Option.some.inj hCall
  exact ⟨h.issued thread _ hOwn, fun other _ => hNobody other⟩

theorem Sound.accept {call : Nat} {handed : List Answered} {request : NetlinkRequest}
    {toDaemon toClient : List UInt8} (h : Sound call handed ⟨request, toDaemon, toClient, .queued⟩) :
    Sound call handed ⟨request, toDaemon, toClient, .accepted⟩ := by
  cases h with
  | unread _ _ padding count _ hFresh => exact .unread request .accepted padding count (.inr rfl) hFresh

theorem Sound.send {call : Nat} {handed : List Answered} {connection : Connection}
    (h : Sound call handed connection) (hUnsent : connection.toDaemon = []) (padding : List UInt8) (count : Nat) :
    Sound call handed { connection with
      toDaemon := connection.toDaemon ++
        (NetlinkRequest.layout.encode connection.request padding).take count } := by
  rw [hUnsent, List.nil_append]
  cases h with
  | unread request stage _ _ hStage hFresh => exact .unread request stage padding count hStage hFresh
  | received request _ hFresh => exact .received request _ hFresh
  | processed request _ response hHanded => exact .processed request _ response hHanded
  | closed request => exact .closed request _
  | answered request _ response padding count hHanded =>
      exact .answered request _ response padding count hHanded

theorem Invariant.send {thread call count : Nat} {request : NetlinkRequest} {connection : Connection}
    (h : Invariant texts traffic) (hPc : traffic.threads thread = .connected call request)
    (hConnection : traffic.connections call = some connection) (padding : List UInt8) :
    Invariant texts ((traffic.setConnection call { connection with
      toDaemon := connection.toDaemon ++ (NetlinkRequest.layout.encode request padding).take count }).setThread
        thread (.waiting call request)) := by
  have hUnsent := h.unsent hConnection hPc
  have hRequest : connection.request = request := by
    have hThread := h.threads thread
    rw [hPc] at hThread
    obtain ⟨found, hFound, hSame, _⟩ := hThread
    obtain rfl := Option.some.inj (hConnection.symm.trans hFound)
    exact hSame
  have hOwn : (traffic.threads thread).call = some call := by rw [hPc]; rfl
  have hWaiting : Invariant texts (traffic.setThread thread (.waiting call request)) :=
    h.keepCall ⟨connection, hConnection, hRequest⟩ fun found hCall => hOwn.trans hCall
  subst hRequest
  refine hWaiting.change hConnection ((h.sound call connection hConnection).send hUnsent padding count) rfl ?_
  intro other found hConnected
  by_cases hSame : other = thread
  · subst hSame
    rw [threads_setThread_self] at hConnected
    cases hConnected
  · rw [threads_setThread_of_ne _ _ hSame] at hConnected
    have hOther : (traffic.threads other).call = some call := by rw [hConnected]; rfl
    exact absurd (h.distinct other thread call hOther hOwn) hSame

/-- Only an answer has bytes for the client, and any full number of them is the answer. -/
theorem Sound.answer {call count : Nat} {handed : List Answered} {connection : Connection}
    {response : StoredResponse} (h : Sound call handed connection)
    (hDecoded : NetlinkResponse.layout.decode (connection.toClient.take count) = some response) :
    ⟨call, connection.request, response.1⟩ ∈ handed := by
  have hEmpty {response : StoredResponse} : NetlinkResponse.layout.decode (([] : List UInt8).take count) ≠ some response := by
    rw [List.take_nil]
    intro hNone
    cases hNone
  cases h with
  | unread | received | processed | closed => exact absurd hDecoded hEmpty
  | answered request toDaemon sent padding taken hHanded =>
      dsimp only at hDecoded ⊢
      rw [List.take_take] at hDecoded
      rw [NetlinkResponse.layout.decode_take hDecoded]
      exact hHanded

theorem Invariant.receive {thread call count : Nat} {request : NetlinkRequest} {connection : Connection}
    {response : StoredResponse} (h : Invariant texts traffic)
    (hPc : traffic.threads thread = .waiting call request)
    (hConnection : traffic.connections call = some connection)
    (hDecoded : NetlinkResponse.layout.decode (connection.toClient.take count) = some response) :
    Invariant texts { traffic.setThread thread .idle with
      returned := traffic.returned ++ [⟨call, request, response.1⟩] } := by
  have hRequest : connection.request = request := by
    have hThread := h.threads thread
    rw [hPc] at hThread
    obtain ⟨found, hFound, hSame⟩ := hThread
    obtain rfl := Option.some.inj (hConnection.symm.trans hFound)
    exact hSame
  have hHanded := (h.sound call connection hConnection).answer hDecoded
  have hIdle : Invariant texts (traffic.setThread thread .idle) := h.keepCall trivial fun _ hCall => by cases hCall
  refine ⟨hIdle.once, hIdle.computed, ?_, hIdle.known, hIdle.sound, hIdle.threads, hIdle.issued, hIdle.made,
    hIdle.distinct⟩
  intro answered hMem
  rcases List.mem_append.mp hMem with hOld | hNew
  · exact h.returned answered hOld
  · rw [List.mem_singleton.mp hNew, ← hRequest]
    exact hHanded

/-- What the worker takes for a request is the caller's. -/
theorem Sound.read {call count : Nat} {handed : List Answered} {connection : Connection} {request : NetlinkRequest}
    (h : Sound call handed connection) (hStage : connection.stage = .accepted)
    (hDecoded : (Received.bytes (connection.toDaemon.take count)).request = some request) :
    Sound call handed { connection with
      toDaemon := connection.toDaemon.drop count
      stage := .received request } := by
  cases h with
  | unread sent stage padding taken _ hFresh =>
      have hPart : NetlinkRequest.layout.decode
          ((NetlinkRequest.layout.encode sent padding).take (min count taken)) = some request := by
        rw [← List.take_take]
        exact hDecoded
      obtain rfl : request = sent := NetlinkRequest.layout.decode_take hPart
      exact .received request _ hFresh
  | received | processed | closed | answered => cases hStage

/-- A request is handed to the manager: the connection has been handed by none. -/
theorem Invariant.hand {answered : Answered} {connection : Connection} (h : Invariant texts traffic)
    (hConnection : traffic.connections answered.call = some connection)
    (hRequest : connection.request = answered.request)
    (hFresh : answered.call ∉ traffic.handed.map Answered.call)
    (hComputed : ∃ manager memory faults,
      (processRequest texts manager answered.request memory faults).1 = answered.response)
    (hSound : Sound answered.call (traffic.handed ++ [answered]) connection) :
    Invariant texts { traffic with handed := traffic.handed ++ [answered] } where
  once := by
    rw [List.map_append, List.map_singleton]
    exact h.once.append (List.nodup_singleton _) (by simpa using hFresh)
  computed := by
    intro other hMem
    rcases List.mem_append.mp hMem with hOld | hNew
    · exact h.computed other hOld
    · exact List.mem_singleton.mp hNew ▸ hComputed
  returned := fun other hMem => List.mem_append_left _ (h.returned other hMem)
  known := by
    intro other hMem
    rcases List.mem_append.mp hMem with hOld | hNew
    · exact h.known other hOld
    · rw [List.mem_singleton.mp hNew]
      exact ⟨connection, hConnection, hRequest⟩
  sound := by
    intro call found hFound
    by_cases hCall : call = answered.call
    · subst hCall
      obtain rfl := Option.some.inj (hConnection.symm.trans hFound)
      exact hSound
    · exact (h.sound call found hFound).of_handed hCall
  threads := h.threads
  issued := h.issued
  made := h.made
  distinct := h.distinct

theorem Invariant.process {call : Nat} {connection : Connection} {request : NetlinkRequest}
    {response : StoredResponse} (h : Invariant texts traffic)
    (hConnection : traffic.connections call = some connection) (hStage : connection.stage = .received request)
    {manager : NetlinkManager} {memory : List UInt8} {faults : RequestFaults}
    (hComputed : (processRequest texts manager request memory faults).1 = response.1) :
    Invariant texts { traffic.setConnection call { connection with stage := .processed response } with
      handed := traffic.handed ++ [⟨call, request, response.1⟩] } := by
  have hSound := h.sound call connection hConnection
  have hUnsent (other : Nat) (found : NetlinkRequest) (hPc : traffic.threads other = .connected call found) :
      connection.toDaemon = [] := h.unsent hConnection hPc
  cases hSound with
  | unread sent stage padding taken hEarly =>
      rcases hEarly with rfl | rfl <;> cases hStage
  | processed | closed | answered => cases hStage
  | received request toDaemon hFresh =>
      cases hStage
      -- closed for the moment, the connection is sound before and after
      have hClosed : Invariant texts (traffic.setConnection call ⟨request, toDaemon, [], .closed⟩) :=
        h.change hConnection (.closed request toDaemon) rfl hUnsent
      have hHanded : Invariant texts { traffic.setConnection call ⟨request, toDaemon, [], .closed⟩ with
          handed := traffic.handed ++ [⟨call, request, response.1⟩] } :=
        hClosed.hand (connections_setConnection_self _ _) rfl hFresh ⟨_, _, _, hComputed⟩
          (.closed request toDaemon)
      have hDone : Sound call (traffic.handed ++ [⟨call, request, response.1⟩])
          ⟨request, toDaemon, [], .processed response⟩ := .processed request toDaemon response (by simp)
      have hProcessed := hHanded.change (connections_setConnection_self _ _) hDone rfl hUnsent
      simp only [RequestTraffic.setConnection, Function.update_idem] at hProcessed ⊢
      exact hProcessed

theorem Sound.respond {call : Nat} {handed : List Answered} {connection : Connection} {response : StoredResponse}
    (h : Sound call handed connection) (hStage : connection.stage = .processed response)
    (padding : List UInt8) (count : Nat) :
    Sound call handed { connection with
      toClient := connection.toClient ++ (NetlinkResponse.layout.encode response padding).take count
      stage := .closed } := by
  cases h with
  | unread sent stage _ taken hEarly =>
      rcases hEarly with rfl | rfl <;> cases hStage
  | received | closed | answered => cases hStage
  | processed request toDaemon response hHanded =>
      cases hStage
      exact .answered request toDaemon response padding count hHanded

theorem inHand_eq_some {pid : Int32} {socket call : Nat} {connection : Connection}
    (h : traffic.inHand pid = some (socket, call, connection)) : traffic.connections call = some connection := by
  simp only [inHand, Option.bind_eq_some_iff, Option.map_eq_some_iff] at h
  obtain ⟨_, _, found, _, _, hConnection, hSame⟩ := h
  cases hSame
  exact hConnection

/-- Every step keeps the invariant. -/
theorem invariant_step {action : Action} (h : Invariant texts traffic)
    (hStep : step texts traffic action = some after) : Invariant texts after := by
  cases action with
  | daemon action =>
      have hBind (other : Daemon.Action) (hOther : ((traffic.daemon.step other).bind fun daemon =>
          if traffic.workersJoined daemon then some { traffic with daemon } else none) = some after) :
          Invariant texts after := by
        obtain ⟨daemon, _, hRest⟩ := Option.bind_eq_some_iff.mp hOther
        split_ifs at hRest
        · obtain rfl := Option.some.inj hRest
          exact h.congr _ _ _ _
      cases action with
      | serve pid => cases hStep
      | register pid faults => exact hBind (.register pid faults) hStep
      | cleanup alive => exact hBind (.cleanup alive) hStep
      | pass duration => exact hBind (.pass duration) hStep
  | call thread request =>
      simp only [step] at hStep
      split at hStep
      · obtain rfl := Option.some.inj hStep
        exact h.newCall request
      · cases hStep
  | connect thread path =>
      simp only [step, connect] at hStep
      split at hStep
      next call request socket hPc _ =>
        obtain rfl := Option.some.inj hStep
        exact (h.connect hPc).congr _ _ _ _
      · cases hStep
  | send thread padding count =>
      simp only [step, send] at hStep
      split at hStep
      next call request hPc =>
        obtain ⟨connection, hConnection, rfl⟩ := Option.map_eq_some_iff.mp hStep
        exact h.send hPc hConnection padding
      · cases hStep
  | receive thread count =>
      simp only [step, receive] at hStep
      split at hStep
      next call request hPc =>
        obtain ⟨connection, hConnection, hRead⟩ := Option.bind_eq_some_iff.mp hStep
        split_ifs at hRead
        cases hDecoded : NetlinkResponse.layout.decode (connection.toClient.take count) with
        | none =>
            simp only [NetlinkClient.requestResponse, Received.decode, hDecoded] at hRead
            obtain rfl := Option.some.inj hRead
            exact h.keepCall trivial fun _ hCall => by cases hCall
        | some response =>
            simp only [NetlinkClient.requestResponse, Received.decode, hDecoded] at hRead
            obtain rfl := Option.some.inj hRead
            exact h.receive hPc hConnection hDecoded
      · cases hStep
  | fail thread =>
      simp only [step] at hStep
      split at hStep
      · cases hStep
      · obtain rfl := Option.some.inj hStep
        exact h.keepCall trivial fun _ hCall => by cases hCall
  | accept pid =>
      obtain ⟨socket, _, hRest⟩ := Option.bind_eq_some_iff.mp hStep
      split at hRest
      next call rest _ _ =>
        split at hRest
        next request toDaemon toClient hConnection =>
          obtain rfl := Option.some.inj hRest
          have hAccepted := h.change hConnection (h.sound call _ hConnection).accept rfl
            fun _ _ hPc => show toDaemon = [] from h.unsent hConnection hPc
          exact hAccepted.congr _ _ _ _
        · cases hRest
      · cases hRest
  | read pid count =>
      obtain ⟨⟨socket, call, connection⟩, hHand, hRest⟩ := Option.bind_eq_some_iff.mp hStep
      have hConnection := inHand_eq_some hHand
      dsimp only at hRest
      split at hRest
      next hStage =>
        split_ifs at hRest with hCount
        split at hRest
        · obtain rfl := Option.some.inj hRest
          exact h.close hConnection socket
        next request hDecoded =>
          obtain ⟨daemon, _, rfl⟩ := Option.map_eq_some_iff.mp hRest
          have hRead := h.change hConnection ((h.sound call _ hConnection).read hStage hDecoded) rfl ?_
          · exact hRead.congr _ _ _ _
          · intro thread found hPc
            have hNone := h.unsent hConnection hPc
            rw [hNone, List.length_nil] at hCount
            omega
      · cases hRest
  | process pid memory faults =>
      obtain ⟨⟨socket, call, connection⟩, hHand, hRest⟩ := Option.bind_eq_some_iff.mp hStep
      have hConnection := inHand_eq_some hHand
      dsimp only at hRest
      split at hRest
      next request hStage =>
        split_ifs at hRest with hInt
        obtain rfl := Option.some.inj hRest
        have hComputed : (processRequest texts traffic.manager request memory faults).1 =
            (⟨_, hInt⟩ : StoredResponse).1 := rfl
        exact (h.process hConnection hStage hComputed).congr _ _ _ _
      · cases hRest
  | respond pid padding count =>
      obtain ⟨⟨socket, call, connection⟩, hHand, hRest⟩ := Option.bind_eq_some_iff.mp hStep
      have hConnection := inHand_eq_some hHand
      dsimp only at hRest
      split at hRest
      next response hStage =>
        obtain rfl := Option.some.inj hRest
        have hResponded := h.change hConnection ((h.sound call _ hConnection).respond hStage padding count) rfl
          fun _ _ hPc => show connection.toDaemon = [] from h.unsent hConnection hPc
        exact hResponded.congr _ _ _ _
      · cases hRest
  | giveUp pid =>
      obtain ⟨⟨socket, call, connection⟩, hHand, rfl⟩ := Option.map_eq_some_iff.mp hStep
      exact h.close (inHand_eq_some hHand) socket

/-- Every request is processed at most once, and whatever `send_request` returns is what
`process_request` has computed for the request of that caller. -/
structure Agreement (texts : ErrorTexts) (traffic : RequestTraffic) : Prop where
  once : (traffic.handed.map Answered.call).Nodup
  computed : ∀ answered ∈ traffic.handed, ∃ manager memory faults,
    (processRequest texts manager answered.request memory faults).1 = answered.response
  returned : ∀ answered ∈ traffic.returned, answered ∈ traffic.handed

theorem requests_agree (texts : ErrorTexts) (manager : NetlinkManager) (actions : List Action)
    (traffic : RequestTraffic) (h : (machine texts).Passes (start manager) actions traffic) :
    Agreement texts traffic := by
  have hInvariant : Invariant texts traffic :=
    h.reachable.invariant (invariant_start manager) fun _ _ _ hBefore hStep => invariant_step hBefore hStep
  exact ⟨hInvariant.once, hInvariant.computed, hInvariant.returned⟩

/-- A process registers, and one of its threads asks whether `can0` exists. -/
def oneQuery : List Action :=
  [.daemon (.register 4242 ⟨none, false⟩), .call 0 (.ofQuery .interfaceExists (ascii "can0")),
    .connect 0 (socketPath (Daemon.generateClientChannelName 4242)), .send 0 [] 24, .accept 4242,
    .read 4242 24, .process 4242 [] noFaults, .respond 4242 [] 264, .receive 0 264]

theorem requests_agree_query :
    ∃ traffic, (machine ⟨fun _ => [], fun _ => []⟩).run (start ⟨.empty, []⟩) oneQuery = some traffic ∧
      traffic.returned.length = 1 ∧ Agreement ⟨fun _ => [], fun _ => []⟩ traffic := by
  have hReturned : ((machine ⟨fun _ => [], fun _ => []⟩).run (start ⟨.empty, []⟩) oneQuery).map
      (fun traffic => traffic.returned.length) = some 1 := by decide +kernel
  obtain ⟨traffic, hRun, hLength⟩ := Option.map_eq_some_iff.mp hReturned
  exact ⟨traffic, hRun, hLength, requests_agree _ _ oneQuery traffic (.of_run hRun)⟩

end RequestTraffic
end HyCAN
