import HyCAN.Client.NetlinkClient

/-! `IPCManager` and what `up` and `down` of an interface do with links: of the start of
the dispatcher, only that its socket looks up the link to be bound to. -/
namespace HyCAN

namespace IPCManager

/-- The default of `set` and `up`. -/
def defaultBitrate : UInt32 := 1000000

/-- `ensure_initialized` before the operation itself. -/
def ensureInitialized {Value : Type} (operation : ClientProgram (Except Error Value)) :
    ClientProgram (Except Error Value) :=
  .ask .makeClient fun
    | some what => .done (.error ⟨.netlinkBringUpError, ascii "Failed to initialize Netlink: " ++ what⟩)
    | none => operation

theorem uses_ensureInitialized {Value : Type} {allowed : ClientCall → Prop}
    {operation : ClientProgram (Except Error Value)} (hMake : allowed .makeClient)
    (hUses : operation.Uses allowed) : (ensureInitialized operation).Uses allowed := by
  refine .ask hMake fun made => ?_
  cases made with
  | some what => exact .done _
  | none => exact hUses

def set (interfaceName : StringView) (up : Bool) (bitrate : UInt32) : ClientProgram (Except Error Unit) :=
  ensureInitialized (NetlinkClient.setInterfaceState interfaceName up bitrate)

/-- `IPCManager::exists` -/
def linkExists (interfaceName : StringView) : ClientProgram (Except Error Bool) :=
  ensureInitialized (NetlinkClient.interfaceExists interfaceName)

def isUp (interfaceName : StringView) : ClientProgram (Except Error Bool) :=
  ensureInitialized (NetlinkClient.interfaceIsUp interfaceName)

def createVcan (interfaceName : StringView) : ClientProgram (Except Error Unit) :=
  ensureInitialized (NetlinkClient.createVcanInterface interfaceName)

end IPCManager

inductive InterfaceType where
  | can
  | vcan
  deriving DecidableEq

namespace Interface

/-- `up` before it sets the state: a vcan link is created if it does not exist, and
a CAN link must exist. -/
def ensureLink (type : InterfaceType) (interfaceName : List UInt8) : ClientProgram (Except Error Unit) :=
  let view := StringView.ofString interfaceName
  (IPCManager.linkExists view).bind fun
    | .error error => .done (.error error)
    | .ok true => .done (.ok ())
    | .ok false =>
      match type with
      | .vcan => IPCManager.createVcan view
      | .can => .done (.error ⟨.netlinkBringUpError, ascii "CAN interface '" ++ interfaceName ++
          ascii "' not found"⟩)

/-- `up` without `dispatcher.start()`. -/
def linkUp (type : InterfaceType) (interfaceName : List UInt8) (bitrate : UInt32) :
    ClientProgram (Except Error Unit) :=
  (ensureLink type interfaceName).bind fun
    | .error error => .done (.error error)
    | .ok () => IPCManager.set (.ofString interfaceName) true bitrate

/-- What `ensure_connected` writes to `ifr_name`. -/
def ifrName (interfaceName : List UInt8) : List UInt8 :=
  CString.read (interfaceName.take (ifNameSize - 1) ++ [0])

/-- The look-up of `Socket::ensure_connected`. -/
def connect (interfaceName : List UInt8) : ClientProgram (Except Error Unit) :=
  .ask (.interfaceIndex (ifrName interfaceName)) fun
    | .error errno => .done (.error ⟨.canInterfaceIndexError, ascii "Failed to get CAN interface '" ++
        ifrName interfaceName ++ ascii "' index: " ++ errno⟩)
    | .ok _ => .done (.ok ())

def up (type : InterfaceType) (interfaceName : List UInt8) (bitrate : UInt32) :
    ClientProgram (Except Error Unit) :=
  (linkUp type interfaceName bitrate).bind fun
    | .error error => .done (.error error)
    | .ok () => connect interfaceName

/-- `down` without `dispatcher.stop()`. -/
def down (interfaceName : List UInt8) : ClientProgram (Except Error Unit) :=
  IPCManager.set (.ofString interfaceName) false IPCManager.defaultBitrate

end Interface
end HyCAN
