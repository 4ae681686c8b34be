import HyCAN.Daemon.Session

/-! One client process and the daemon. The steps of `NetlinkClient::send_request`
are those of the client, and between any two of them the daemon may do anything
else: serve other clients or the same process again, clean up, or wait. -/
namespace HyCAN

/-- Where the client's call of `send_request` is. -/
inductive ClientPc where
  | idle
  | called
  /-- In `ensure_registered`, which has found the client not registered. -/
  | contacting
  | registering
  /-- The daemon has answered, or closed the connection. -/
  | answered (response : Option ClientRegisterResponse)
  | connecting
  | requesting
  | replied
  deriving DecidableEq

structure ClientSystem where
  daemon : Daemon
  registered : Bool
  clientChannelName : List UInt8
  pc : ClientPc

namespace ClientSystem

def init : ClientSystem where
  daemon := .init
  registered := false
  clientChannelName := []
  pc := .idle

inductive Action where
  | daemon (action : Daemon.Action)
  | call
  | ensureRegistered
  | sendRegistration
  | answer (faults : RegistrationFaults)
  | readResponse
  | connect
  | reply
  | readReply
  | giveUp

/-- As long as the client lives, the clean-up finds its process alive. -/
def sparesClient (pid : Int32) : Daemon.Action → Bool
  | .cleanup alive => alive pid
  | _ => true

/-- The rest of `ensure_registered` once a response is there, or none will come. -/
def readResponse (system : ClientSystem) : Option ClientRegisterResponse → ClientSystem
  | none => { system with pc := .idle }
  | some response =>
    if response.result ≠ 0 then { system with pc := .idle }
    else { system with
      clientChannelName := response.channelName
      registered := true
      pc := .connecting }

/-- `giveUp` is any of the errors that `send_request` returns: a socket that does not
connect, a failed `send`, a response that does not come in time, an exception. -/
def step (pid : Int32) (system : ClientSystem) : Action → Option ClientSystem
  | .daemon action =>
    if sparesClient pid action then
      (system.daemon.step action).map fun daemon => { system with daemon }
    else none
  | .call =>
    match system.pc with
    | .idle => some { system with pc := .called }
    | _ => none
  | .ensureRegistered =>
    match system.pc with
    | .called => some { system with pc := if system.registered then .connecting else .contacting }
    | _ => none
  | .sendRegistration =>
    match system.pc with
    | .contacting => some { system with pc := .registering }
    | _ => none
  | .answer faults =>
    match system.pc with
    | .registering =>
      let handled := system.daemon.handleClientRegistration pid faults
      some { system with daemon := handled.2, pc := .answered handled.1 }
    | _ => none
  | .readResponse =>
    match system.pc with
    | .answered response => some (system.readResponse response)
    | _ => none
  | .connect =>
    match system.pc with
    | .connecting =>
      if (system.daemon.sockets (socketPath system.clientChannelName)).isSome then
        some { system with pc := .requesting }
      else none
    | _ => none
  | .reply =>
    match system.pc with
    | .requesting =>
      (system.daemon.serveRequest pid).map fun daemon => { system with daemon, pc := .replied }
    | _ => none
  | .readReply =>
    match system.pc with
    | .replied => some { system with pc := .idle }
    | _ => none
  | .giveUp =>
    match system.pc with
    | .idle | .called => none
    | _ => some { system with pc := .idle }

def machine (pid : Int32) : Transition.Machine ClientSystem Action := ⟨step pid⟩

end ClientSystem
end HyCAN
