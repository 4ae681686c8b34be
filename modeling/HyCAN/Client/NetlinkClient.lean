import HyCAN.Daemon.Message
import HyCAN.Text.Decimal
import HyCAN.Transition.Program

/-! The operations of `NetlinkClient` on an interface, as programs that send requests
and run commands. A `std::string_view` is its own bytes and, since the constructors
of the requests ignore its length, the bytes behind them. -/
namespace HyCAN

structure StringView where
  text : List UInt8
  behind : List UInt8

namespace StringView

/-- The memory from `data()` on. -/
def data (view : StringView) : List UInt8 :=
  view.text ++ view.behind

def startsWith (view : StringView) (start : List UInt8) : Bool :=
  start.isPrefixOf view.text

/-- A view of a whole `std::string`, which has a NUL behind it. -/
def ofString (text : List UInt8) : StringView :=
  ⟨text, [0]⟩

end StringView

inductive ErrorCode where
  | netlinkBringDownError
  | netlinkBringUpError
  | canSocketCreateError
  | canInterfaceIndexError
  | canSocketBindError
  | canSocketWriteError
  | canSocketBufferFull
  | canInvalidSocketError
  | canFlushError
  | epollError
  | reaperStopError
  | funcCanIdSetError
  deriving DecidableEq

structure Error where
  code : ErrorCode
  message : List UInt8
  deriving DecidableEq

/-- The commands of the fallback. -/
inductive IpCommand where
  | bitrate (name : List UInt8) (rate : UInt32)
  | state (name : List UInt8) (up : Bool)

/-- The text that is given to the shell. -/
def IpCommand.text : IpCommand → List UInt8
  | .bitrate name rate => ascii "sudo ip link set " ++ name ++ ascii " type can bitrate " ++
      Decimal.digits rate.toNat
  | .state name true => ascii "sudo ip link set " ++ name ++ ascii " up"
  | .state name false => ascii "sudo ip link set " ++ name ++ ascii " down"

/-- What a client process asks for outside itself. -/
inductive ClientCall where
  /-- `std::make_unique<NetlinkClient>()`, unless the client is there already. -/
  | makeClient
  | sendRequest (request : NetlinkRequest)
  | system (command : IpCommand)
  /-- `ioctl` with `SIOCGIFINDEX` -/
  | interfaceIndex (ifrName : List UInt8)

/-- The text of an exception, the response, what `std::system` returns, and the index
or the text of `errno`. -/
abbrev ClientCall.Answer : ClientCall → Type
  | .makeClient => Option (List UInt8)
  | .sendRequest _ => Except Error NetlinkResponse
  | .system _ => Int
  | .interfaceIndex _ => Except (List UInt8) Nat

abbrev ClientProgram := Transition.Program ClientCall.Answer

namespace NetlinkClient

/-- The request of `set_interface_state`. -/
def stateRequest (interfaceName : StringView) (up : Bool) (bitrate : UInt32) : NetlinkRequest :=
  let isCanInterface := interfaceName.startsWith (ascii "can")
  .ofState interfaceName.data up (isCanInterface && up) bitrate

/-- The name that the request's field holds. -/
theorem name_stateRequest (view : StringView) (up : Bool) (bitrate : UInt32) (after : List UInt8) :
    (stateRequest view up bitrate).name after = (CString.read view.data).take (ifNameSize - 1) :=
  NetlinkRequest.read_nameField view.data after

/-- The client asks for a bitrate by the name alone. -/
theorem setBitrate_stateRequest {view : StringView} {up : Bool} {bitrate : UInt32} :
    (stateRequest view up bitrate).setBitrate = true ↔
      view.startsWith (ascii "can") = true ∧ up = true :=
  Bool.and_eq_true_iff

def bringError (up : Bool) (message : List UInt8) : Error :=
  ⟨if up then .netlinkBringUpError else .netlinkBringDownError, message⟩

/-- The last command of the fallback. -/
def fallbackState (interfaceName : StringView) (state : Bool) : ClientProgram (Except Error Unit) :=
  .ask (.system (.state interfaceName.text state)) fun result =>
    if result ≠ 0 then
      let verb := if state then ascii "bring up" else ascii "bring down"
      .done (.error (bringError state (ascii "Failed to " ++ verb ++ ascii " interface " ++
        interfaceName.text ++ ascii ": system() returned " ++ Decimal.text result)))
    else .done (.ok ())

def fallbackSystemCall (interfaceName : StringView) (state : Bool) (bitrate : UInt32) :
    ClientProgram (Except Error Unit) :=
  if state && interfaceName.startsWith (ascii "can") then
    .ask (.system (.bitrate interfaceName.text bitrate)) fun result =>
      if result ≠ 0 then
        .done (.error ⟨.netlinkBringUpError, ascii "Failed to set bitrate " ++
          Decimal.digits bitrate.toNat ++ ascii " for interface " ++ interfaceName.text ++
          ascii ": system() returned " ++ Decimal.text result⟩)
      else fallbackState interfaceName state
  else fallbackState interfaceName state

def setInterfaceState (interfaceName : StringView) (up : Bool) (bitrate : UInt32) :
    ClientProgram (Except Error Unit) :=
  .ask (.sendRequest (stateRequest interfaceName up bitrate)) fun
    | .error _ => fallbackSystemCall interfaceName up bitrate
    | .ok response =>
      if response.result ≠ 0 then
        let verb := if up then ascii "bring up" else ascii "bring down"
        .done (.error (bringError up (ascii "Daemon failed to " ++ verb ++ ascii " interface " ++
          interfaceName.text ++ ascii ": " ++ response.errorText)))
      else .done (.ok ())

/-- The calls of the fallback: one command, or two if a CAN interface is brought up. -/
theorem uses_fallbackSystemCall_iff {allowed : ClientCall → Prop} {view : StringView} {state : Bool}
    {bitrate : UInt32} : (fallbackSystemCall view state bitrate).Uses allowed ↔
      (state = true → view.startsWith (ascii "can") = true →
        allowed (.system (.bitrate view.text bitrate))) ∧
      allowed (.system (.state view.text state)) := by
  have hLast : (fallbackState view state).Uses allowed ↔ allowed (.system (.state view.text state)) := by
    constructor
    · intro hUses
      cases hUses with
      | ask hCall _ => exact hCall
    · intro hCall
      refine .ask hCall fun result => ?_
      dsimp only
      split_ifs <;> exact .done _
  unfold fallbackSystemCall
  split_ifs with hCan
  · obtain ⟨hState, hStart⟩ := Bool.and_eq_true_iff.mp hCan
    constructor
    · intro hUses
      cases hUses with
      | ask hCall hNext => exact ⟨fun _ _ => hCall, hLast.mp (hNext 0)⟩
    · rintro ⟨hBitrate, hCall⟩
      refine .ask (hBitrate hState hStart) fun result => ?_
      split_ifs
      · exact .done _
      · exact hLast.mpr hCall
  · rw [hLast]
    refine (and_iff_right fun hState hStart => ?_).symm
    exact absurd (Bool.and_eq_true_iff.mpr ⟨hState, hStart⟩) hCan

/-- The calls of `set_interface_state`. -/
theorem uses_setInterfaceState_iff {allowed : ClientCall → Prop} {view : StringView} {up : Bool}
    {bitrate : UInt32} : (setInterfaceState view up bitrate).Uses allowed ↔
      allowed (.sendRequest (stateRequest view up bitrate)) ∧
        (fallbackSystemCall view up bitrate).Uses allowed := by
  constructor
  · intro hUses
    cases hUses with
    | ask hCall hNext => exact ⟨hCall, hNext (.error ⟨.netlinkBringUpError, []⟩)⟩
  · rintro ⟨hCall, hFallback⟩
    refine .ask hCall fun answer => ?_
    cases answer with
    | error error => exact hFallback
    | ok response =>
        dsimp only
        split_ifs <;> exact .done _

/-- The operations without a fallback: send the request, and take the value from a
response without error. -/
def requestOnly {Value : Type} (request : NetlinkRequest) (failure : List UInt8)
    (value : NetlinkResponse → Value) : ClientProgram (Except Error Value) :=
  .ask (.sendRequest request) fun
    | .error error => .done (.error error)
    | .ok response =>
      if response.result ≠ 0 then
        .done (.error ⟨.netlinkBringUpError, failure ++ ascii ": " ++ response.errorText⟩)
      else .done (.ok (value response))

theorem uses_requestOnly {Value : Type} {allowed : ClientCall → Prop} {request : NetlinkRequest}
    {failure : List UInt8} {value : NetlinkResponse → Value} (hCall : allowed (.sendRequest request)) :
    (requestOnly request failure value).Uses allowed := by
  refine .ask hCall fun answer => ?_
  cases answer with
  | error error => exact .done _
  | ok response =>
      dsimp only
      split_ifs <;> exact .done _

def interfaceExists (interfaceName : StringView) : ClientProgram (Except Error Bool) :=
  requestOnly (.ofQuery .interfaceExists interfaceName.data)
    (ascii "Failed to check if interface " ++ interfaceName.text ++ ascii " exists") (·.linkExists)

def interfaceIsUp (interfaceName : StringView) : ClientProgram (Except Error Bool) :=
  requestOnly (.ofQuery .interfaceIsUp interfaceName.data)
    (ascii "Failed to check if interface " ++ interfaceName.text ++ ascii " is up") (·.isUp)

def createVcanInterface (interfaceName : StringView) : ClientProgram (Except Error Unit) :=
  requestOnly (.ofQuery .createVcanInterface interfaceName.data)
    (ascii "Failed to create VCAN interface " ++ interfaceName.text) fun _ => ()

end NetlinkClient
end HyCAN
