import HyCAN.Daemon.Libnl
import HyCAN.Transition.RecursiveMutex

/-! `NetlinkManager` and `create_vcan_interface_if_not_exists` call by call: the calls of
libnl on the pointers that they have, and the lock guards on `mutex_`. -/
namespace HyCAN

open Transition

abbrev NetlinkProgram (Result : Type) : Type :=
  Program (Guarded.Reply LibnlCall.Answer) Result

namespace NetlinkProgram

variable {Result : Type} (texts : ErrorTexts)

abbrev ask (call : LibnlCall) (next : call.Answer → NetlinkProgram Result) : NetlinkProgram Result :=
  Program.ask (Guarded.under call) next

/-- The pointers that the manager has, 0 for NULL. -/
structure Pointers where
  nlSocket : Nat := 0
  linkCache : Nat := 0

/-- `NetlinkManager::initialize` on a manager that has nothing yet. -/
def initialization : NetlinkProgram (Int × Pointers) :=
  ask .nlSocketAlloc fun
    | none => .done (-1, {})
    | some nlSocket =>
      ask (.nlConnect nlSocket) fun result =>
        if result < 0 then ask (.nlSocketFree nlSocket) fun _ => .done (-1, {})
        else
          ask (.rtnlLinkAllocCache nlSocket) fun
            | none => ask (.nlSocketFree nlSocket) fun _ => .done (-1, {})
            | some linkCache => .done (0, ⟨nlSocket, linkCache⟩)

/-- Of `NetlinkManager::cleanup`: the socket, after the cache. -/
def freeSocket (pointers : Pointers) : NetlinkProgram Unit :=
  if pointers.nlSocket ≠ 0 then ask (.nlSocketFree pointers.nlSocket) fun _ => .done () else .done ()

/-- `NetlinkManager::cleanup`, which the destructor calls. -/
def cleanup (pointers : Pointers) : NetlinkProgram Unit :=
  if pointers.linkCache ≠ 0 then ask (.nlCacheFree pointers.linkCache) fun _ => freeSocket pointers
  else freeSocket pointers

section Requests

variable (nlSocket linkCache : Nat) (name : List UInt8)

def checkInterfaceExists : NetlinkProgram NetlinkResponse :=
  Guarded.locked <|
    ask (.nlCacheRefill nlSocket linkCache) fun result =>
      if result < 0 then .done (.ofQuery (-1) false false)
      else
        ask (.rtnlLinkGetByName linkCache name) fun
          | none => .done (.ofQuery 0 false false)
          | some link => ask (.rtnlLinkPut link) fun _ => .done (.ofQuery 0 true false)

def checkInterfaceIsUp : NetlinkProgram NetlinkResponse :=
  Guarded.locked <|
    ask (.nlCacheRefill nlSocket linkCache) fun result =>
      if result < 0 then .done (.ofQuery (-1) false false)
      else
        ask (.rtnlLinkGetByName linkCache name) fun
          | none => .done (.ofQuery 0 false false)
          | some link =>
            ask (.rtnlLinkGetFlags link) fun isUp =>
              ask (.rtnlLinkPut link) fun _ => .done (.ofQuery 0 true isUp)

/-- Of `set_interface_state_libnl`: the change, with the request filled in. -/
def changeState (link change : Nat) : NetlinkProgram NetlinkResponse :=
  ask (.rtnlLinkChange nlSocket link change) fun result =>
    ask (.rtnlLinkPut change) fun _ =>
      ask (.rtnlLinkPut link) fun _ =>
        if result < 0 then
          .done (.ofMessage result (ascii "rtnl_link_change failed: " ++ texts.nlGeterror result))
        else ask (.nlCacheRefill nlSocket linkCache) fun _ => .done (.ofMessage 0 (ascii "Success"))

def setInterfaceStateLibnl (up : Bool) : NetlinkProgram NetlinkResponse :=
  Guarded.locked <|
    ask (.nlCacheRefill nlSocket linkCache) fun result =>
      if result < 0 then .done (.ofMessage (-1) (ascii "Failed to refresh link cache"))
      else
        ask (.rtnlLinkGetByName linkCache name) fun
          | none => .done (.ofMessage (-1) (ascii "Interface " ++ name ++ ascii " not found"))
          | some link =>
            ask (.rtnlLinkGetFlags link) fun isCurrentlyUp =>
              if isCurrentlyUp = up then
                ask (.rtnlLinkPut link) fun _ =>
                  let status := if up then ascii "up" else ascii "down"
                  .done (.ofMessage 0 (ascii "Interface " ++ name ++ ascii " is already " ++ status))
              else
                ask .rtnlLinkAlloc fun
                  | none =>
                    ask (.rtnlLinkPut link) fun _ =>
                      .done (.ofMessage (-1) (ascii "Failed to allocate change link object"))
                  | some change =>
                    if up then
                      ask (.rtnlLinkSetFlags change) fun _ => changeState texts nlSocket linkCache link change
                    else
                      ask (.rtnlLinkUnsetFlags change) fun _ => changeState texts nlSocket linkCache link change

/-- Of `set_can_bitrate_libnl`: the request, from its type on. -/
def changeBitrate (link change : Nat) (bitrate : UInt32) : NetlinkProgram NetlinkResponse :=
  ask (.rtnlLinkSetType change .can) fun result =>
    if result < 0 then
      ask (.rtnlLinkPut change) fun _ =>
        ask (.rtnlLinkPut link) fun _ => .done (.ofMessage (-1) (ascii "Failed to set link type to 'can'"))
    else
      ask (.rtnlLinkCanSetBitrate change bitrate) fun _ =>
        ask (.rtnlLinkChange nlSocket link change) fun result =>
          ask (.rtnlLinkPut change) fun _ =>
            ask (.rtnlLinkPut link) fun _ =>
              if result < 0 then
                .done (.ofMessage result (ascii "Failed to set CAN bitrate: " ++ texts.nlGeterror result))
              else .done (.ofMessage 0 (ascii "CAN bitrate set successfully"))

def setCanBitrateLibnl (bitrate : UInt32) : NetlinkProgram NetlinkResponse :=
  Guarded.locked <|
    if ¬(ascii "can").isPrefixOf name then
      .done (.ofMessage 0 (ascii "Not a CAN interface, skipping bitrate setting"))
    else
      ask (.rtnlLinkGetByName linkCache name) fun
        | none => .done (.ofMessage (-1) (ascii "CAN Interface " ++ name ++ ascii " not found"))
        | some link =>
          ask .rtnlLinkAlloc fun
            | none =>
              ask (.rtnlLinkPut link) fun _ =>
                .done (.ofMessage (-1) (ascii "Failed to allocate change link object for CAN"))
            | some change =>
              ask (.rtnlLinkIsCan link) fun isCan =>
                if isCan then changeBitrate texts nlSocket link change bitrate
                else
                  ask (.rtnlLinkPut change) fun _ =>
                    ask (.rtnlLinkPut link) fun _ =>
                      .done (.ofMessage (-1) (ascii "Interface is not a CAN interface"))

/-- Of `create_vcan_interface_if_not_exists`: the request, over a socket of its own. -/
def addVcan (socket link : Nat) : NetlinkProgram (Except (List UInt8) Unit) :=
  ask (.rtnlLinkSetName link name) fun _ =>
    -- what comes of the type is not looked at
    ask (.rtnlLinkSetType link .vcan) fun _ =>
      ask (.rtnlLinkAdd socket link) fun result =>
        ask (.rtnlLinkPut link) fun _ =>
          ask (.nlClose socket) fun _ =>
            ask (.nlSocketFree socket) fun _ =>
              if result < 0 then
                .done (.error (ascii "Failed to create VCAN interface '" ++ name ++ ascii "': " ++
                  texts.strerror (-result)))
              else .done (.ok ())

def createVcanInterfaceIfNotExists : NetlinkProgram (Except (List UInt8) Unit) :=
  ask (.ifNametoindex name) fun
    | .ok _ => .done (.ok ())
    | .error errno =>
      if errno ≠ noDevice then
        .done (.error (ascii "Error checking interface '" ++ name ++ ascii "' before creation: " ++
          texts.strerror errno))
      else
        ask .nlSocketAlloc fun
          | none => .done (.error (ascii "Error: Cannot alloc nl_socket."))
          | some socket =>
            ask (.nlConnect socket) fun result =>
              if result < 0 then
                ask (.nlSocketFree socket) fun _ =>
                  .done (.error (ascii "Error: Cannot connect to nl_socket."))
              else
                ask .rtnlLinkAlloc fun
                  | none =>
                    ask (.nlClose socket) fun _ =>
                      ask (.nlSocketFree socket) fun _ =>
                        .done (.error (ascii "Error: Cannot alloc rtnl_link."))
                  | some link => addVcan texts name socket link

variable (request : NetlinkRequest)

/-- Of `SET_INTERFACE_STATE`: the bitrate, and then the requested state. -/
def setBitrateThenState : NetlinkProgram NetlinkResponse :=
  (setCanBitrateLibnl texts nlSocket linkCache name request.bitrate).bind fun rated =>
    if rated.result ≠ 0 then .done rated
    else setInterfaceStateLibnl texts nlSocket linkCache name request.up

/-- Of `SET_INTERFACE_STATE`: a link that is up goes down before its bitrate is set. -/
def lowerThenSet (isUp : Bool) : NetlinkProgram NetlinkResponse :=
  if isUp then
    (setInterfaceStateLibnl texts nlSocket linkCache name false).bind fun lowered =>
      if lowered.result ≠ 0 then
        .done (.ofMessage lowered.result (ascii "Failed to bring down interface " ++ name ++
          ascii " before setting bitrate: " ++ lowered.errorText))
      else setBitrateThenState texts nlSocket linkCache name request
  else setBitrateThenState texts nlSocket linkCache name request

/-- The branch of `process_request` for `SET_INTERFACE_STATE`. -/
def processSetInterfaceState : NetlinkProgram NetlinkResponse :=
  if request.up ∧ request.setBitrate then
    (checkInterfaceIsUp nlSocket linkCache name).bind fun checked =>
      if checked.result ≠ 0 then .done checked
      else lowerThenSet texts nlSocket linkCache name request checked.isUp
  else setInterfaceStateLibnl texts nlSocket linkCache name request.up

/-- The body of `process_request`, inside its lock guard. -/
def handleRequest (after : List UInt8) : NetlinkProgram NetlinkResponse :=
  match RequestType.ofByte request.operation with
  | some .interfaceExists => checkInterfaceExists nlSocket linkCache (request.name after)
  | some .interfaceIsUp => checkInterfaceIsUp nlSocket linkCache (request.name after)
  | some .createVcanInterface =>
    (createVcanInterfaceIfNotExists texts (request.name after)).bind fun
      | .error message =>
        .done (.ofMessage (-1) (ascii "Failed to create VCAN interface " ++ request.name after ++
          ascii ": " ++ message))
      | .ok _ => .done (.ofMessage 0 (ascii "VCAN interface created successfully"))
  | some .setInterfaceState =>
    processSetInterfaceState texts nlSocket linkCache (request.name after) request
  | _ => .done (.ofMessage (-1) (ascii "Unknown request operation"))

def processRequest (after : List UInt8) : NetlinkProgram NetlinkResponse :=
  Guarded.locked (handleRequest texts nlSocket linkCache request after)

end Requests

/-- Requests one after the other. -/
def serve (pointers : Pointers) : List (NetlinkRequest × List UInt8) → NetlinkProgram (List NetlinkResponse)
  | [] => .done []
  | (request, after) :: rest =>
    (processRequest texts pointers.nlSocket pointers.linkCache request after).bind fun response =>
      (serve pointers rest).bind fun responses => .done (response :: responses)

/-- A manager from its constructor to its destructor. Where it cannot be initialized the
constructor of the daemon throws, and the manager is destroyed as well. -/
def lifetime (requests : List (NetlinkRequest × List UInt8)) : NetlinkProgram (Option (List NetlinkResponse)) :=
  initialization.bind fun initialized =>
    if initialized.1 < 0 then (cleanup initialized.2).bind fun _ => .done none
    else
      (serve texts initialized.2 requests).bind fun responses =>
        (cleanup initialized.2).bind fun _ => .done (some responses)

end NetlinkProgram
end HyCAN
