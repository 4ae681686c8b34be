import HyCAN.Daemon.Message

/-! `NetlinkManager` and the helper that creates vcan links. Every call that can
fail takes its outcome from the faults of the request, so that a statement about
all requests is one about all patterns of failures as well. -/
namespace HyCAN

/-- The texts that the libraries have for their error codes. -/
structure ErrorTexts where
  nlGeterror : Int → List UInt8
  strerror : Int → List UInt8

/-- What `nl_cache_refill` does: fill the cache with the links of the kernel, fail
before it clears the cache, or fail with the first links read. -/
inductive Refill where
  | ok
  | refused
  | cutShort (count : Nat)
  deriving DecidableEq

structure StateFaults where
  refill : Refill
  allocFails : Bool
  refusal : Option Nat
  refillAfter : Refill

structure BitrateFaults where
  allocFails : Bool
  typeFails : Bool
  refusal : Option Nat

structure CreateFaults where
  /-- An `errno` other than `ENODEV` that `if_nametoindex` fails with. -/
  probe : Option Int
  socketAllocFails : Bool
  connectFails : Bool
  linkAllocFails : Bool
  add : AddOutcome

/-- One entry for each call made by `process_request`. -/
structure RequestFaults where
  check : Refill
  down : StateFaults
  bitrate : BitrateFaults
  final : StateFaults
  create : CreateFaults

/-- The links of the kernel, and the links as the manager last saw them. -/
structure NetlinkManager where
  kernel : LinkTable
  linkCache : List Link

namespace NetlinkManager

variable (texts : ErrorTexts)

/-- The manager after `nl_cache_refill`, and whether the call succeeded. -/
def refill (manager : NetlinkManager) : Refill → Bool × NetlinkManager
  | .ok => (true, { manager with linkCache := manager.kernel.links })
  | .refused => (false, manager)
  | .cutShort count => (false, { manager with linkCache := manager.kernel.links.take count })

/-- `rtnl_link_get_by_name` -/
def cached (manager : NetlinkManager) (name : List UInt8) : Option Link :=
  manager.linkCache.find? fun link => link.name = name

def checkInterfaceExists (manager : NetlinkManager) (name : List UInt8) (fault : Refill) :
    NetlinkResponse × NetlinkManager :=
  match manager.refill fault with
  | (false, manager) => (.ofQuery (-1) false false, manager)
  | (true, manager) => (.ofQuery 0 (manager.cached name).isSome false, manager)

def checkInterfaceIsUp (manager : NetlinkManager) (name : List UInt8) (fault : Refill) :
    NetlinkResponse × NetlinkManager :=
  match manager.refill fault with
  | (false, manager) => (.ofQuery (-1) false false, manager)
  | (true, manager) =>
    match manager.cached name with
    | none => (.ofQuery 0 false false, manager)
    | some link => (.ofQuery 0 true link.up, manager)

def setInterfaceStateLibnl (manager : NetlinkManager) (name : List UInt8) (up : Bool)
    (faults : StateFaults) : NetlinkResponse × NetlinkManager :=
  match manager.refill faults.refill with
  | (false, manager) => (.ofMessage (-1) (ascii "Failed to refresh link cache"), manager)
  | (true, manager) =>
    match manager.cached name with
    | none => (.ofMessage (-1) (ascii "Interface " ++ name ++ ascii " not found"), manager)
    | some link =>
      if link.up = up then
        let status := if up then ascii "up" else ascii "down"
        (.ofMessage 0 (ascii "Interface " ++ name ++ ascii " is already " ++ status), manager)
      else if faults.allocFails then
        (.ofMessage (-1) (ascii "Failed to allocate change link object"), manager)
      else
        let (result, kernel) := manager.kernel.rtnlLinkChange link (.state up) faults.refusal
        let manager := { manager with kernel }
        if result < 0 then
          (.ofMessage result (ascii "rtnl_link_change failed: " ++ texts.nlGeterror result), manager)
        -- whether this refill succeeds is not looked at
        else (.ofMessage 0 (ascii "Success"), (manager.refill faults.refillAfter).2)

/-- The bitrate goes to the link as the cache was left; nothing refreshes it here. -/
def setCanBitrateLibnl (manager : NetlinkManager) (name : List UInt8) (bitrate : UInt32)
    (faults : BitrateFaults) : NetlinkResponse × NetlinkManager :=
  if ¬(ascii "can").isPrefixOf name then
    (.ofMessage 0 (ascii "Not a CAN interface, skipping bitrate setting"), manager)
  else match manager.cached name with
    | none => (.ofMessage (-1) (ascii "CAN Interface " ++ name ++ ascii " not found"), manager)
    | some link =>
      if faults.allocFails then
        (.ofMessage (-1) (ascii "Failed to allocate change link object for CAN"), manager)
      else if link.kind = .can then
        if faults.typeFails then
          (.ofMessage (-1) (ascii "Failed to set link type to 'can'"), manager)
        else
          let (result, kernel) := manager.kernel.rtnlLinkChange link (.bitrate bitrate) faults.refusal
          let manager := { manager with kernel }
          if result < 0 then
            (.ofMessage result (ascii "Failed to set CAN bitrate: " ++ texts.nlGeterror result), manager)
          else (.ofMessage 0 (ascii "CAN bitrate set successfully"), manager)
      else (.ofMessage (-1) (ascii "Interface is not a CAN interface"), manager)

/-- The error message, or nothing, with the links of the kernel afterwards. The
`errno` text is what a failed probe leaves; `strerror` is given a libnl code. -/
def createVcanInterfaceIfNotExists (kernel : LinkTable) (name : List UInt8) (faults : CreateFaults) :
    Except (List UInt8) Unit × LinkTable :=
  match faults.probe with
  | some errno =>
    (.error (ascii "Error checking interface '" ++ name ++ ascii "' before creation: " ++
      texts.strerror errno), kernel)
  | none =>
    -- `if_nametoindex`
    if (kernel.byName (ioctlName name)).isSome then (.ok (), kernel)
    else if faults.socketAllocFails then (.error (ascii "Error: Cannot alloc nl_socket."), kernel)
    else if faults.connectFails then (.error (ascii "Error: Cannot connect to nl_socket."), kernel)
    else if faults.linkAllocFails then (.error (ascii "Error: Cannot alloc rtnl_link."), kernel)
    else
      let (result, kernel) := kernel.rtnlLinkAdd name faults.add
      if result < 0 then
        (.error (ascii "Failed to create VCAN interface '" ++ name ++ ascii "': " ++
          texts.strerror (-result)), kernel)
      else (.ok (), kernel)

/-- Of `SET_INTERFACE_STATE`: a link that is up goes down before its bitrate is set. -/
def lowerBeforeBitrate (manager : NetlinkManager) (name : List UInt8) (isUp : Bool)
    (faults : StateFaults) : NetlinkResponse × NetlinkManager :=
  if isUp then manager.setInterfaceStateLibnl texts name false faults
  else (.ofMessage 0 [], manager)

/-- Of `SET_INTERFACE_STATE`: the bitrate, and then the requested state. -/
def setBitrateThenState (manager : NetlinkManager) (request : NetlinkRequest) (name : List UInt8)
    (faults : RequestFaults) : NetlinkResponse × NetlinkManager :=
  let rated := manager.setCanBitrateLibnl texts name request.bitrate faults.bitrate
  if rated.1.result ≠ 0 then rated
  else rated.2.setInterfaceStateLibnl texts name request.up faults.final

/-- The branch of `process_request` for `SET_INTERFACE_STATE`. -/
def processSetInterfaceState (manager : NetlinkManager) (request : NetlinkRequest)
    (name : List UInt8) (faults : RequestFaults) : NetlinkResponse × NetlinkManager :=
  if request.up ∧ request.setBitrate then
    let checked := manager.checkInterfaceIsUp name faults.check
    if checked.1.result ≠ 0 then checked
    else
      let lowered := checked.2.lowerBeforeBitrate texts name checked.1.isUp faults.down
      if lowered.1.result ≠ 0 then
        (.ofMessage lowered.1.result (ascii "Failed to bring down interface " ++ name ++
          ascii " before setting bitrate: " ++ lowered.1.errorText), lowered.2)
      else lowered.2.setBitrateThenState texts request name faults
  else manager.setInterfaceStateLibnl texts name request.up faults.final

/-- `after` is the memory behind the request, which the conversions of its name
can run into. -/
def processRequest (manager : NetlinkManager) (request : NetlinkRequest) (after : List UInt8)
    (faults : RequestFaults) : NetlinkResponse × NetlinkManager :=
  match RequestType.ofByte request.operation with
  | some .interfaceExists => manager.checkInterfaceExists (request.name after) faults.check
  | some .interfaceIsUp => manager.checkInterfaceIsUp (request.name after) faults.check
  | some .createVcanInterface =>
    match createVcanInterfaceIfNotExists texts manager.kernel (request.name after) faults.create with
    | (.error message, kernel) =>
      (.ofMessage (-1) (ascii "Failed to create VCAN interface " ++ request.name after ++
        ascii ": " ++ message), { manager with kernel })
    | (.ok _, kernel) =>
      (.ofMessage 0 (ascii "VCAN interface created successfully"), { manager with kernel })
  | some .setInterfaceState =>
    manager.processSetInterfaceState texts request (request.name after) faults
  | _ => (.ofMessage (-1) (ascii "Unknown request operation"), manager)

end NetlinkManager
end HyCAN
