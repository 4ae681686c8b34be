import HyCAN.Daemon.UnixSocket
import HyCAN.Daemon.Wire

/-! `ensure_registered` and `send_request` with the sockets they make. Each function makes
one socket, sends one message and waits for one answer, and whatever fails, the socket is
gone when it returns. -/
namespace HyCAN

open Ownership Transition

/-- The sockets of the two functions. -/
inductive ClientSocket where
  | registration
  | request
  deriving DecidableEq

inductive ChannelCall where
  /-- `std::make_unique<UnixSocket>(name, UnixSocket::CLIENT)` -/
  | make (socket : ClientSocket) (name : List UInt8)
  | initializeSocket (socket : ClientSocket)
  | send (socket : ClientSocket) (data : List UInt8)
  | recv (socket : ClientSocket) (size : Nat)
  /-- The copy to `client_channel_name_`. -/
  | assign (name : List UInt8)
  | destroy (socket : ClientSocket)

/-- What the calls return, and the `what()` of those that can throw. -/
abbrev ChannelCall.Answer : ChannelCall → Type
  | .make _ _ | .assign _ => Option (List UInt8)
  | .initializeSocket _ => Bool
  | .send _ _ => Int
  | .recv _ _ => Received
  | .destroy _ => Unit

abbrev ChannelProgram := Program ChannelCall.Answer

/-- `registered_` and `client_channel_name_` -/
structure ClientRegistration where
  registered : Bool
  clientChannelName : List UInt8

namespace NetlinkClient

/-- The texts in which the two functions differ. -/
structure ExchangeTexts where
  exception : List UInt8
  connect : List UInt8
  send : List UInt8

def upError (message : List UInt8) : Error :=
  ⟨.netlinkBringUpError, message⟩

/-- What the two functions have in common: the socket, the message, and what is received.
The socket is destroyed on every way out, by the unwinding of an exception too. -/
def exchange {Value : Type} (socket : ClientSocket) (name data : List UInt8) (size : Nat)
    (texts : ExchangeTexts) (answered : Received → ChannelProgram (Except Error Value)) :
    ChannelProgram (Except Error Value) :=
  .ask (.make socket name) fun
    | some what => .done (.error (upError (texts.exception ++ what)))
    | none =>
      let leave (result : Except Error Value) : ChannelProgram (Except Error Value) :=
        .ask (.destroy socket) fun _ => .done result
      .ask (.initializeSocket socket) fun connected =>
        if connected = false then leave (.error (upError texts.connect))
        else .ask (.send socket data) fun sent =>
          if sent < 0 then leave (.error (upError texts.send))
          else .ask (.recv socket size) fun received => (answered received).bind leave

def registrationTexts : ExchangeTexts where
  exception := ascii "Exception during registration: "
  connect := ascii "Failed to connect to daemon for registration"
  send := ascii "Failed to send registration request to daemon"

def requestTexts : ExchangeTexts where
  exception := ascii "Exception during request: "
  connect := ascii "Failed to connect to daemon client channel"
  send := ascii "Failed to send request to daemon"

/-- `ensure_registered` from `recv` on. -/
def registrationAnswered (received : Received) : ChannelProgram (Except Error (List UInt8)) :=
  match registrationResponse received with
  | .error error => .done (.error error)
  | .ok response =>
    if response.1.result ≠ 0 then .done (.error (upError (ascii "Daemon failed to register client")))
    else .ask (.assign response.1.channelName) fun
      | some what => .done (.error (upError (registrationTexts.exception ++ what)))
      | none => .done (.ok response.1.channelName)

def registrationExchange (pid : Int32) : ChannelProgram (Except Error (List UInt8)) :=
  exchange .registration (ascii "daemon") (ClientRegisterRequest.layout.encode ⟨pid⟩ [])
    ClientRegisterResponse.layout.size registrationTexts registrationAnswered

def requestExchange (channelName : List UInt8) (request : NetlinkRequest) (padding : List UInt8) :
    ChannelProgram (Except Error StoredResponse) :=
  exchange .request channelName (NetlinkRequest.layout.encode request padding) NetlinkResponse.layout.size
    requestTexts fun received => .done (requestResponse received)

def ensureRegistered (pid : Int32) (client : ClientRegistration) :
    ChannelProgram (Except Error Unit × ClientRegistration) :=
  if client.registered then .done (.ok (), client)
  else (registrationExchange pid).bind fun
    | .error error => .done (.error error, client)
    | .ok name => .done (.ok (), ⟨true, name⟩)

/-- `send_request`, with what is in the padding of the request. -/
def sendRequest (pid : Int32) (request : NetlinkRequest) (padding : List UInt8) (client : ClientRegistration) :
    ChannelProgram (Except Error StoredResponse × ClientRegistration) :=
  (ensureRegistered pid client).bind fun
    | (.error error, client) => .done (.error error, client)
    | (.ok (), client) => (requestExchange client.clientChannelName request padding).bind fun result =>
        .done (result, client)

end NetlinkClient

/-- What can go wrong in a call, and what comes in. -/
structure ChannelFault where
  exception : Option (List UInt8)
  outcome : InitializeOutcome
  sent : Option Nat
  received : Received

/-- The sockets of a client, and the messages that it has sent, with the paths of their
channels. -/
structure ClientChannels where
  sockets : UnixSockets ClientSocket
  sent : List (List UInt8 × List UInt8)

namespace ClientChannels

/-- `socket` returns no number that is in use. -/
def possible (ledger : Ledger ClientSocket) (outcome : InitializeOutcome) : InitializeOutcome :=
  if outcome.fd.all fun fd => ledger.openings fd = none then outcome else .socketFails

/-- `UnixSocket::send` and `recv` fail on a socket that is not connected. -/
def handle : Handler ChannelCall.Answer ClientChannels ChannelFault
  | .make socket name, fault, s =>
    match fault.exception with
    | some what => (some what, s)
    | none => (none, { s with sockets := s.sockets.put socket (.ofName name .client) })
  | .initializeSocket socket, fault, s =>
    match s.sockets.objects socket with
    | none => (false, s)
    | some object =>
      match s.sockets.initializeSocket socket object (possible s.sockets.ledger fault.outcome) with
      | none => (false, s)
      | some (done, sockets) => (done, { s with sockets })
  | .send socket data, fault, s =>
    match s.sockets.objects socket, fault.sent with
    | some object, some count =>
      if object.connected && object.socketFd.isSome then
        (count, { s with sent := s.sent ++ [(object.socketPath, data)] })
      else (-1, s)
    | _, _ => (-1, s)
  | .recv socket size, fault, s =>
    match s.sockets.objects socket, fault.received with
    | some object, .bytes stored =>
      if object.connected && object.socketFd.isSome then (.bytes (stored.take size), s) else (.error, s)
    | _, _ => (.error, s)
  | .assign _, fault, s => (fault.exception, s)
  | .destroy socket, _, s => ((), { s with sockets := s.sockets.reset socket })

end ClientChannels

/-- A call of `send_request` that has returned. -/
structure RequestCall where
  request : NetlinkRequest
  padding : List UInt8
  result : Except Error StoredResponse

/-- A process with its client, whose calls come one after another. -/
structure ClientProcess where
  channels : ClientChannels
  client : ClientRegistration
  calls : List RequestCall

namespace ClientProcess

/-- A new client, in a process that has other descriptors in use. -/
def start (application : Nat → Bool) : ClientProcess where
  channels :=
    { sockets :=
        { ledger := ⟨fun fd => if application fd then some .foreign else none, 0, fun _ => none⟩
          listening := fun _ => false
          files := fun _ => none
          objects := fun _ => none }
      sent := [] }
  client := ⟨false, []⟩
  calls := []

inductive Action where
  | request (request : NetlinkRequest) (padding : List UInt8) (faults : Nat → ChannelFault)
  | openForeign (fd : Nat)
  | closeForeign (fd : Nat)

def withLedger (s : ClientProcess) (ledger : Ledger ClientSocket) : ClientProcess :=
  { s with channels := { s.channels with sockets := { s.channels.sockets with ledger } } }

def step (pid : Int32) (s : ClientProcess) : Action → Option ClientProcess
  | .request request padding faults =>
    let done := (NetlinkClient.sendRequest pid request padding s.client).run ClientChannels.handle faults s.channels
    some ⟨done.2, done.1.2, s.calls ++ [⟨request, padding, done.1.1⟩]⟩
  | .openForeign fd =>
    if s.channels.sockets.ledger.openings fd = none then
      some (s.withLedger (s.channels.sockets.ledger.openForeign fd))
    else none
  | .closeForeign fd =>
    if s.channels.sockets.ledger.openings fd = some .foreign then
      some (s.withLedger (s.channels.sockets.ledger.close fd))
    else none

def machine (pid : Int32) : Machine ClientProcess Action := ⟨step pid⟩

end ClientProcess

namespace ClientChannels

variable {s t u : ClientChannels} {socket : ClientSocket} {name : List UInt8}

/-- Between the constructor and the destructor of the socket: there is the object, and
the one number that it may have was free before. -/
structure Open (s u : ClientChannels) (socket : ClientSocket) (name : List UInt8) (object : UnixSocket) :
    Prop where
  placed : u.sockets.objects = Function.update s.sockets.objects socket (some object)
  mode : object.mode = .client
  path : object.socketPath = socketPath name
  openings : (object.socketFd = none ∧ u.sockets.ledger.openings = s.sockets.ledger.openings) ∨
    ∃ fd serial, object.socketFd = some fd ∧ s.sockets.ledger.openings fd = none ∧
      u.sockets.ledger.openings = Function.update s.sockets.ledger.openings fd (some (.issued serial))

section Open

variable {object : UnixSocket}

theorem Open.objects (h : Open s u socket name object) : u.sockets.objects socket = some object := by
  rw [h.placed, Function.update_self]

theorem open_make (s : ClientChannels) (socket : ClientSocket) (name : List UInt8) :
    Open s { s with sockets := s.sockets.put socket (.ofName name .client) } socket name
      (.ofName name .client) where
  placed := rfl
  mode := rfl
  path := rfl
  openings := .inl ⟨rfl, rfl⟩

/-- A client's `close` gives back its number, and has no file to remove. -/
theorem Open.close (h : Open s u socket name object) :
    Open s { u with sockets := u.sockets.close socket object } socket name
      { object with socketFd := none, connected := false } := by
  have hFile (sockets : UnixSockets ClientSocket) : sockets.removeFile object = sockets := by
    simp [UnixSockets.removeFile, h.mode]
  refine ⟨?_, h.mode, h.path, .inl ⟨rfl, ?_⟩⟩
  · unfold UnixSockets.close
    rw [hFile]
    cases object.socketFd <;> simp [UnixSockets.closeFd, UnixSockets.put, h.placed]
  · unfold UnixSockets.close
    rw [hFile]
    rcases h.openings with ⟨hFd, hSame⟩ | ⟨fd, serial, hFd, hFree, hIssued⟩
    · rw [hFd]
      exact hSame
    · rw [hFd]
      show Function.update u.sockets.ledger.openings fd none = _
      rw [hIssued, Function.update_idem, ← hFree, Function.update_eq_self]

/-- After the destructor everything is as it was before the constructor. -/
theorem Open.reset (h : Open s u socket name object) (hNone : s.sockets.objects socket = none) :
    (u.sockets.reset socket).objects = s.sockets.objects ∧
      (u.sockets.reset socket).ledger.openings = s.sockets.ledger.openings := by
  have hClosed := h.close
  have hDestroy : u.sockets.reset socket = u.sockets.destroy socket object := by
    simp [UnixSockets.reset, h.objects]
  rw [hDestroy]
  constructor
  · show Function.update (u.sockets.close socket object).objects socket none = _
    have hPlaced : (u.sockets.close socket object).objects = _ := hClosed.placed
    rw [hPlaced, Function.update_idem, ← hNone, Function.update_eq_self]
  · rcases hClosed.openings with ⟨_, hSame⟩ | ⟨fd, _, hFd, _⟩
    · exact hSame
    · cases hFd

theorem Open.openings_of_none (h : Open s u socket name object) (hFd : object.socketFd = none) :
    u.sockets.ledger.openings = s.sockets.ledger.openings := by
  rcases h.openings with ⟨_, hSame⟩ | ⟨fd, _, hSome, _⟩
  · exact hSame
  · rw [hFd] at hSome
    cases hSome

theorem Open.obtain (h : Open s u socket name object) (hFd : object.socketFd = none) {fd : Nat}
    (hFree : u.sockets.ledger.openings fd = none) :
    Open s { u with sockets := u.sockets.obtain socket object fd } socket name
      { object with socketFd := some fd } := by
  have hSame := h.openings_of_none hFd
  refine ⟨?_, h.mode, h.path, .inr ⟨fd, u.sockets.ledger.nextSerial, rfl, hSame ▸ hFree, ?_⟩⟩
  · simp [UnixSockets.obtain, UnixSockets.put, h.placed]
  · rw [← hSame]
    rfl

/-- The object gets another flag. -/
theorem Open.connect (h : Open s u socket name object) :
    Open s { u with sockets := u.sockets.put socket { object with connected := true } } socket name
      { object with connected := true } := by
  refine ⟨?_, h.mode, h.path, h.openings⟩
  simp [UnixSockets.put, h.placed]

theorem Open.initializeClient (h : Open s u socket name object) (outcome : InitializeOutcome) :
    ∃ after, Open s { u with sockets := (u.sockets.initializeClient socket object outcome).2 } socket name
      after := by
  cases outcome with
  | connectFails fd => exact ⟨_, h.close⟩
  | socketFails | bindFails | listenFails | done => exact ⟨_, h.connect⟩

/-- `initialize` of a new object, with any outcome. -/
theorem Open.initializeSocket (h : Open s u socket name object) (hFd : object.socketFd = none)
    (fault : ChannelFault) :
    ∃ after, Open s (handle (.initializeSocket socket) fault u).2 socket name after ∧
      (handle (.initializeSocket socket) fault u).2.sent = u.sent := by
  obtain ⟨socketFd, path, mode, connected⟩ := object
  obtain rfl : mode = .client := h.mode
  simp only [handle, h.objects]
  generalize possible u.sockets.ledger fault.outcome = outcome
  unfold UnixSockets.initializeSocket
  cases hOutcome : outcome.fd with
  | none =>
      refine ⟨⟨none, path, .client, connected⟩, ⟨?_, rfl, h.path, .inl ⟨rfl, h.openings_of_none hFd⟩⟩, rfl⟩
      simp [UnixSockets.put, h.placed]
  | some fd =>
      dsimp only
      split_ifs with hFree hLong
      · exact ⟨_, (h.obtain hFd hFree).close, rfl⟩
      · obtain ⟨after, hAfter⟩ := (h.obtain hFd hFree).initializeClient outcome
        exact ⟨after, hAfter, rfl⟩
      · exact ⟨_, h, rfl⟩

/-- A `send` gives at most this message to the channel of the name. -/
theorem Open.send (h : Open s u socket name object) (data : List UInt8) (fault : ChannelFault) :
    (handle (.send socket data) fault u).2.sockets = u.sockets ∧
      ((handle (.send socket data) fault u).1 < 0 ∧ (handle (.send socket data) fault u).2.sent = u.sent ∨
        0 ≤ (handle (.send socket data) fault u).1 ∧
          (handle (.send socket data) fault u).2.sent = u.sent ++ [(socketPath name, data)]) := by
  simp only [handle, h.objects]
  cases fault.sent with
  | none => exact ⟨rfl, .inl ⟨Int.negSucc_lt_zero 0, rfl⟩⟩
  | some count =>
      dsimp only
      split_ifs
      · refine ⟨rfl, .inr ⟨Int.natCast_nonneg count, ?_⟩⟩
        rw [h.path]
      · exact ⟨rfl, .inl ⟨Int.negSucc_lt_zero 0, rfl⟩⟩

theorem handle_recv (size : Nat) (fault : ChannelFault) : (handle (.recv socket size) fault u).2 = u := by
  simp only [handle]
  split
  · split_ifs <;> rfl
  · rfl

end Open

/-- What a function leaves that makes one socket and sends one message over it: at most the
message, and for sure if it returns success. -/
structure Exchanged (s t : ClientChannels) (message : List UInt8 × List UInt8) (ok : Bool) : Prop where
  objects : t.sockets.objects = s.sockets.objects
  openings : t.sockets.ledger.openings = s.sockets.ledger.openings
  sent : t.sent = s.sent ∧ ok = false ∨ t.sent = s.sent ++ [message]

theorem handle_answered {Value : Type} {answered : ChannelProgram Value}
    (h : answered.Uses fun call => ∃ name, call = .assign name) (faults : Nat → ChannelFault) :
    (answered.run handle faults u).2 = u := by
  refine h.run handle (P := fun after => after = u) ?_ faults rfl
  rintro call fault state ⟨name, rfl⟩ hState
  exact hState

/-- The rest of a function, from a state on, leaves this. -/
def Leaves {Value : Type} (s u : ClientChannels) (message : List UInt8 × List UInt8)
    (program : ChannelProgram (Except Error Value)) : Prop :=
  ∀ faults, Exchanged s (program.run handle faults u).2 message (program.run handle faults u).1.isOk

section Exchange

variable {Value : Type} {data : List UInt8} {object : UnixSocket}

theorem Open.leaves_unsent (h : Open s u socket name object) (hNone : s.sockets.objects socket = none)
    (hUnsent : u.sent = s.sent) (error : Error) :
    Leaves s u (socketPath name, data) (.ask (.destroy socket) fun _ => .done (.error error : Except Error Value)) := by
  intro faults
  obtain ⟨hObjects, hOpenings⟩ := h.reset hNone
  exact ⟨hObjects, hOpenings, .inl ⟨hUnsent, rfl⟩⟩

theorem Open.leaves_sent (h : Open s u socket name object) (hNone : s.sockets.objects socket = none)
    (hSent : u.sent = s.sent ++ [(socketPath name, data)]) (result : Except Error Value) :
    Leaves s u (socketPath name, data) (.ask (.destroy socket) fun _ => .done result) := by
  intro faults
  obtain ⟨hObjects, hOpenings⟩ := h.reset hNone
  exact ⟨hObjects, hOpenings, .inr hSent⟩

variable {size : Nat} {texts : NetlinkClient.ExchangeTexts}
  {answered : Received → ChannelProgram (Except Error Value)}

theorem leaves_exchange
    (hAnswered : ∀ received, (answered received).Uses fun call => ∃ name, call = .assign name)
    (hNone : s.sockets.objects socket = none) :
    Leaves s s (socketPath name, data) (NetlinkClient.exchange socket name data size texts answered) := by
  intro faults
  simp only [NetlinkClient.exchange, Program.run]
  cases hMade : (faults 0).exception with
  | some what =>
      simp only [handle, hMade, Program.run]
      exact ⟨rfl, rfl, .inl ⟨rfl, rfl⟩⟩
  | none =>
      have hMake : handle (.make socket name) (faults 0) s =
          (none, { s with sockets := s.sockets.put socket (.ofName name .client) }) := by
        simp only [handle, hMade]
      rw [hMake]
      obtain ⟨object, hOpen, hUnsent⟩ := (open_make s socket name).initializeSocket rfl (faults 1)
      simp only [Program.run]
      generalize handle (.initializeSocket socket) (faults (0 + 1)) _ = connected at hOpen hUnsent ⊢
      obtain ⟨done, u⟩ := connected
      cases done with
      | false => exact hOpen.leaves_unsent hNone hUnsent _ _
      | true =>
          simp only [Bool.true_eq_false, ↓reduceIte, Program.run]
          obtain ⟨hSockets, hSend⟩ := hOpen.send data (faults (0 + 1 + 1))
          generalize handle (.send socket data) (faults (0 + 1 + 1)) u = sent at hSockets hSend ⊢
          obtain ⟨count, v⟩ := sent
          have hStill : Open s v socket name object :=
            ⟨hSockets ▸ hOpen.placed, hOpen.mode, hOpen.path, hSockets ▸ hOpen.openings⟩
          rcases hSend with ⟨hFailed, hSame⟩ | ⟨hCount, hSent⟩
          · rw [if_pos hFailed]
            exact hStill.leaves_unsent hNone (hSame.trans hUnsent) _ _
          · rw [if_neg (Int.not_lt.mpr hCount)]
            simp only [Program.run, handle_recv]
            generalize (handle (.recv socket size) (faults (0 + 1 + 1 + 1)) v).1 = received
            obtain ⟨used, hRest⟩ := Program.run_bind (Except Error Value) handle (answered received)
              (fun k => faults (k + 1 + 1 + 1 + 1)) v
            rw [hRest, handle_answered (hAnswered received)]
            exact hStill.leaves_sent hNone (hSent.trans (congrArg (· ++ _) hUnsent)) _ _

end Exchange

def registrationMessage (pid : Int32) : List UInt8 × List UInt8 :=
  (socketPath (ascii "daemon"), ClientRegisterRequest.layout.encode ⟨pid⟩ [])

def requestMessage (client : ClientRegistration) (request : NetlinkRequest) (padding : List UInt8) :
    List UInt8 × List UInt8 :=
  (socketPath client.clientChannelName, NetlinkRequest.layout.encode request padding)

/-- What `ensure_registered` leaves when it is called with the one client and ends with the
other. Only a client that is not registered tries to register. -/
structure Registers (pid : Int32) (s t : ClientChannels) (client after : ClientRegistration) (attempts : Nat) :
    Prop where
  objects : t.sockets.objects = s.sockets.objects
  openings : t.sockets.ledger.openings = s.sockets.ledger.openings
  sent : t.sent = s.sent ++ List.replicate attempts (registrationMessage pid)
  registered : client.registered = true → attempts = 0 ∧ after = client

theorem uses_registrationAnswered (received : Received) :
    (NetlinkClient.registrationAnswered received).Uses fun call => ∃ name, call = .assign name := by
  unfold NetlinkClient.registrationAnswered
  split
  · exact .done _
  · split_ifs
    · exact .done _
    · refine .ask ⟨_, rfl⟩ fun answer => ?_
      cases answer <;> exact .done _

theorem ensureRegistered_run (pid : Int32) (client : ClientRegistration)
    (hNone : s.sockets.objects .registration = none) (faults : Nat → ChannelFault) :
    ∃ result after attempts, ((NetlinkClient.ensureRegistered pid client).run handle faults s).1 = (result, after) ∧
      Registers pid s ((NetlinkClient.ensureRegistered pid client).run handle faults s).2 client after attempts ∧
      (result = .ok () → after.registered = true) := by
  unfold NetlinkClient.ensureRegistered
  split_ifs with hRegistered
  · exact ⟨.ok (), client, 0, rfl, ⟨rfl, rfl, (List.append_nil _).symm, fun _ => ⟨rfl, rfl⟩⟩, fun _ => hRegistered⟩
  · have hLeaves : Leaves s s (registrationMessage pid) (NetlinkClient.registrationExchange pid) :=
      leaves_exchange uses_registrationAnswered hNone
    have hExchange := hLeaves faults
    obtain ⟨used, hRest⟩ := Program.run_bind (Except Error Unit × ClientRegistration) handle
      (NetlinkClient.registrationExchange pid) faults s
    rw [hRest]
    generalize (NetlinkClient.registrationExchange pid).run handle faults s = done at hExchange ⊢
    obtain ⟨result, t⟩ := done
    -- one attempt, or none, whatever comes of it
    obtain ⟨attempts, hSent⟩ : ∃ attempts, t.sent = s.sent ++ List.replicate attempts (registrationMessage pid) := by
      rcases hExchange.sent with ⟨hUnsent, _⟩ | hSent
      · exact ⟨0, hUnsent.trans (List.append_nil _).symm⟩
      · exact ⟨1, hSent⟩
    have hRegisters (after : ClientRegistration) : Registers pid s t client after attempts :=
      ⟨hExchange.objects, hExchange.openings, hSent, fun hTrue => absurd hTrue hRegistered⟩
    cases result with
    | error error => exact ⟨.error error, client, attempts, rfl, hRegisters client, fun hOk => by cases hOk⟩
    | ok name => exact ⟨.ok (), ⟨true, name⟩, attempts, rfl, hRegisters _, fun _ => rfl⟩

/-- A call of `send_request` sends its request at most once, over the channel of the client,
and not before the client is registered. -/
theorem sendRequest_run (pid : Int32) (request : NetlinkRequest) (padding : List UInt8)
    (client : ClientRegistration) (hNone : ∀ socket, s.sockets.objects socket = none)
    (faults : Nat → ChannelFault) :
    ∃ result after attempts middle,
      ((NetlinkClient.sendRequest pid request padding client).run handle faults s).1 = (result, after) ∧
      Registers pid s middle client after attempts ∧
      Exchanged middle ((NetlinkClient.sendRequest pid request padding client).run handle faults s).2
        (requestMessage after request padding) result.isOk ∧
      (after.registered = false →
        ((NetlinkClient.sendRequest pid request padding client).run handle faults s).2.sent = middle.sent) := by
  obtain ⟨registration, after, attempts, hResult, hRegisters, hOk⟩ :=
    ensureRegistered_run pid client (hNone .registration) faults
  obtain ⟨used, hRest⟩ := Program.run_bind (Except Error StoredResponse × ClientRegistration) handle
    (NetlinkClient.ensureRegistered pid client) faults s
  unfold NetlinkClient.sendRequest
  rw [hRest, hResult]
  generalize (Program.run handle _ faults s).2 = middle at hRegisters ⊢
  cases registration with
  | error error =>
      exact ⟨.error error, after, attempts, middle, rfl, hRegisters, ⟨rfl, rfl, .inl ⟨rfl, rfl⟩⟩, fun _ => rfl⟩
  | ok =>
      dsimp only
      have hFree : middle.sockets.objects .request = none := by
        rw [hRegisters.objects]
        exact hNone .request
      have hLeaves : Leaves middle middle (requestMessage after request padding)
          (NetlinkClient.requestExchange after.clientChannelName request padding) :=
        leaves_exchange (fun received => .done _) hFree
      have hExchange := hLeaves fun k => faults (k + used)
      obtain ⟨more, hLast⟩ := Program.run_bind (Except Error StoredResponse × ClientRegistration) handle
        (NetlinkClient.requestExchange after.clientChannelName request padding) (fun k => faults (k + used)) middle
      rw [hLast]
      generalize (NetlinkClient.requestExchange after.clientChannelName request padding).run handle
        (fun k => faults (k + used)) middle = done at hExchange ⊢
      obtain ⟨result, t⟩ := done
      refine ⟨result, after, attempts, middle, rfl, hRegisters, hExchange, fun hFalse => ?_⟩
      rw [hOk rfl] at hFalse
      cases hFalse

end ClientChannels

namespace ClientProcess

open ClientChannels

variable {pid : Int32} {s t : ClientProcess}

def messageOf (client : ClientRegistration) (call : RequestCall) : List UInt8 × List UInt8 :=
  requestMessage client call.request call.padding

/-- What holds between the calls. All attempts to register come before all requests. -/
structure Clean (pid : Int32) (s : ClientProcess) : Prop where
  objects : ∀ socket, s.channels.sockets.objects socket = none
  closed : ∀ fd serial, s.channels.sockets.ledger.openings fd ≠ some (.issued serial)
  traffic : ∃ attempts sent,
    s.channels.sent = List.replicate attempts (registrationMessage pid) ++ sent.map (messageOf s.client) ∧
      sent.Sublist s.calls ∧ (s.calls.filter (·.result.isOk)).Sublist sent ∧
      (s.client.registered = false → sent = [])

theorem clean_start (application : Nat → Bool) : (start application).Clean pid where
  objects := fun _ => rfl
  closed := by
    intro fd serial hOpen
    simp only [start] at hOpen
    split_ifs at hOpen
    cases hOpen
  traffic := ⟨0, [], rfl, List.Sublist.refl _, List.Sublist.refl _, fun _ => rfl⟩

theorem Clean.withLedger (h : s.Clean pid) {ledger : Ledger ClientSocket}
    (hIssued : ∀ fd serial, ledger.openings fd = some (.issued serial) →
      s.channels.sockets.ledger.openings fd = some (.issued serial)) : (s.withLedger ledger).Clean pid :=
  ⟨h.objects, fun fd serial hOpen => h.closed fd serial (hIssued fd serial hOpen), h.traffic⟩

/-- What one call adds to the messages and to the calls. -/
theorem Clean.request (h : s.Clean pid) (request : NetlinkRequest) (padding : List UInt8)
    (faults : Nat → ChannelFault) (hStep : (machine pid).step s (.request request padding faults) = some t) :
    t.Clean pid ∧ t.channels.sockets.ledger.openings = s.channels.sockets.ledger.openings := by
  obtain ⟨result, after, attempts, middle, hResult, hRegisters, hExchanged, hUnregistered⟩ :=
    sendRequest_run pid request padding s.client h.objects faults
  change some _ = some t at hStep
  cases hStep
  rw [hResult]
  generalize (Program.run handle (NetlinkClient.sendRequest pid request padding s.client) faults s.channels).2 = u
    at hExchanged hUnregistered ⊢
  have hOpenings : u.sockets.ledger.openings = s.channels.sockets.ledger.openings :=
    hExchanged.openings.trans hRegisters.openings
  refine ⟨⟨?_, ?_, ?_⟩, hOpenings⟩
  · intro socket
    show u.sockets.objects socket = none
    rw [hExchanged.objects, hRegisters.objects]
    exact h.objects socket
  · intro fd serial
    show u.sockets.ledger.openings fd ≠ _
    rw [hOpenings]
    exact h.closed fd serial
  · obtain ⟨before, sent, hSent, hCalls, hOk, hNone⟩ := h.traffic
    -- a client that was not registered has sent no request that could carry another name
    have hMiddle : ∃ count, middle.sent =
        List.replicate count (registrationMessage pid) ++ sent.map (messageOf after) := by
      cases hRegistered : s.client.registered with
      | true =>
          obtain ⟨rfl, rfl⟩ := hRegisters.registered hRegistered
          exact ⟨before, (hRegisters.sent.trans (List.append_nil _)).trans hSent⟩
      | false =>
          refine ⟨before + attempts, ?_⟩
          rw [hRegisters.sent, hSent, hNone hRegistered, List.map_nil, List.append_nil, List.map_nil,
            List.append_nil, List.replicate_append_replicate]
    obtain ⟨count, hMiddle⟩ := hMiddle
    rcases hExchanged.sent with ⟨hUnsent, hFailed⟩ | hMessage
    · refine ⟨count, sent, hUnsent.trans hMiddle, hCalls.trans (List.sublist_append_left _ _), ?_, ?_⟩
      · rw [List.filter_append]
        simpa [hFailed] using hOk
      · intro hFalse
        refine hNone ?_
        by_contra hTrue
        obtain ⟨_, rfl⟩ := hRegisters.registered (Bool.eq_true_of_not_eq_false hTrue)
        exact hTrue hFalse
    · refine ⟨count, sent ++ [⟨request, padding, result⟩], ?_, hCalls.append_right _, ?_, ?_⟩
      · rw [hMessage, hMiddle, List.map_append, ← List.append_assoc]
        rfl
      · rw [List.filter_append]
        exact hOk.append List.filter_sublist
      · intro hFalse
        have hSame := hUnregistered hFalse
        rw [hMessage, List.append_right_eq_self] at hSame
        cases hSame

/-- Whatever fails in the calls of `send_request`, exceptions included: when a call has
returned, no socket of the client and no descriptor of one is left, and the call has changed
nothing of what else the process has open. All messages are attempts to register, and after
them the requests of different calls in the order of the calls, over the channel that the
daemon has named. Each call has sent its request at most once, and exactly once if it has
returned a response. -/
theorem calls_clean (pid : Int32) (application : Nat → Bool) (s : ClientProcess)
    (hReachable : (machine pid).Reachable (start application) s) :
    (∀ socket, s.channels.sockets.objects socket = none) ∧
      (∀ fd serial, s.channels.sockets.ledger.openings fd ≠ some (.issued serial)) ∧
      (∀ request padding faults t, (machine pid).step s (.request request padding faults) = some t →
        t.channels.sockets.ledger.openings = s.channels.sockets.ledger.openings) ∧
      ∃ attempts sent,
        s.channels.sent = List.replicate attempts (registrationMessage pid) ++ sent.map (messageOf s.client) ∧
          sent.Sublist s.calls ∧ (s.calls.filter (·.result.isOk)).Sublist sent := by
  have h : s.Clean pid := by
    refine hReachable.invariant (P := fun s => s.Clean pid) (clean_start application) ?_
    intro before action after hBefore hStep
    cases action with
    | request request padding faults => exact (hBefore.request request padding faults hStep).1
    | openForeign fd =>
        change (if _ then _ else _) = some after at hStep
        split_ifs at hStep with hFree
        cases Option.some.inj hStep
        exact hBefore.withLedger fun _ _ hOpen => (Ledger.issued_openForeign hFree).mp hOpen
    | closeForeign fd =>
        change (if _ then _ else _) = some after at hStep
        split_ifs at hStep with hForeign
        cases Option.some.inj hStep
        exact hBefore.withLedger fun _ _ hOpen => (Ledger.issued_closeForeign hForeign).mp hOpen
  obtain ⟨attempts, sent, hSent, hCalls, hOk, _⟩ := h.traffic
  refine ⟨h.objects, h.closed, ?_, attempts, sent, hSent, hCalls, hOk⟩
  intro request padding faults t hStep
  exact (h.request request padding faults hStep).2

/-- A registration that is refused, one that is granted with a request that is not answered
behind it, and a request that is answered. -/
def threeCalls : List Action :=
  let request := NetlinkRequest.ofQuery .interfaceExists (ascii "can0")
  let answers (data : List UInt8) : ChannelFault := ⟨none, .done 3, some 4, .bytes data⟩
  let registers (result : Int) : List UInt8 :=
    ByteStream.intBytes result ++ (ClientRegisterResponse.of result (ascii "client_7")).clientChannelName.toList
  let response : StoredResponse := ⟨.ofQuery 0 true true, by decide⟩
  [.request request [] fun _ => answers (registers (-1)),
    .request request [] fun k => if k < 6 then answers (registers 0) else answers [],
    .request request [] fun _ => answers (NetlinkResponse.layout.encode response [])]

theorem calls_clean_pid7 : ∃ s, (machine 7).run (start fun fd => fd < 3) threeCalls = some s ∧
    s.calls.map (·.result.isOk) = [false, false, true] ∧ s.client.clientChannelName = ascii "client_7" ∧
      (∀ fd serial, s.channels.sockets.ledger.openings fd ≠ some (.issued serial)) ∧
      ∃ attempts sent,
        s.channels.sent = List.replicate attempts (registrationMessage 7) ++ sent.map (messageOf s.client) ∧
          sent.Sublist s.calls ∧ (s.calls.filter (·.result.isOk)).Sublist sent := by
  have hRuns : ((machine 7).run (start fun fd => fd < 3) threeCalls).map (fun s =>
      (s.calls.map (·.result.isOk), s.client.clientChannelName)) =
        some ([false, false, true], ascii "client_7") := by decide +kernel
  obtain ⟨s, hRun, hEnds⟩ := Option.map_eq_some_iff.mp hRuns
  obtain ⟨hResults, hName⟩ := Prod.mk.inj hEnds
  obtain ⟨_, hClosed, _, hTraffic⟩ := calls_clean 7 (fun fd => fd < 3) s ⟨_, hRun⟩
  exact ⟨s, hRun, hResults, hName, hClosed, hTraffic⟩

end ClientProcess
end HyCAN
