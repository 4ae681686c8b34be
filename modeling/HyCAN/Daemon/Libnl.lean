import HyCAN.Daemon.NetlinkManager
import HyCAN.Ownership.Arena
import HyCAN.Transition.Refinement

/-! The calls of libnl that the daemon makes, on the objects behind its pointers and on
the links of the kernel. A call on a pointer that is not to a live object of its type, or
to a socket without a connection, is marked: nothing is known about what comes of it. -/
namespace HyCAN

/-- A link object that the daemon fills in for a request, with what has been set. -/
structure LinkRequest where
  name : Option (List UInt8) := none
  kind : Option LinkKind := none
  flags : Option Bool := none
  bitrate : Option UInt32 := none

/-- What a request asks the kernel to change, if it is one of those that the daemon makes. -/
def LinkRequest.change? (request : LinkRequest) : Option LinkChange :=
  match request.flags, request.bitrate with
  | some up, none => some (.state up)
  | none, some rate => some (.bitrate rate)
  | _, _ => none

inductive NlObject where
  | socket (connected : Bool)
  | cache (links : List Link)
  /-- One reference to a link object of a cache, which has to be put once. -/
  | link (link : Link)
  | request (request : LinkRequest)

inductive LibnlCall where
  | nlSocketAlloc
  | nlConnect (socket : Nat)
  | nlClose (socket : Nat)
  | nlSocketFree (socket : Nat)
  | rtnlLinkAllocCache (socket : Nat)
  | nlCacheRefill (socket cache : Nat)
  | nlCacheFree (cache : Nat)
  | rtnlLinkGetByName (cache : Nat) (name : List UInt8)
  | rtnlLinkGetFlags (link : Nat)
  | rtnlLinkIsCan (link : Nat)
  | rtnlLinkPut (link : Nat)
  | rtnlLinkAlloc
  | rtnlLinkSetName (link : Nat) (name : List UInt8)
  | rtnlLinkSetType (link : Nat) (kind : LinkKind)
  | rtnlLinkSetFlags (link : Nat)
  | rtnlLinkUnsetFlags (link : Nat)
  | rtnlLinkCanSetBitrate (link : Nat) (bitrate : UInt32)
  | rtnlLinkChange (socket link change : Nat)
  | rtnlLinkAdd (socket link : Nat)
  | ifNametoindex (name : List UInt8)

/-- A pointer or NULL, a code that is negative for an error, whether `IFF_UP` is among the
flags, or the index of a link or the `errno` there is instead. -/
abbrev LibnlCall.Answer : LibnlCall → Type
  | .nlSocketAlloc | .rtnlLinkAllocCache _ | .rtnlLinkGetByName _ _ | .rtnlLinkAlloc => Option Nat
  | .nlConnect _ | .nlCacheRefill _ _ | .rtnlLinkSetType _ _ | .rtnlLinkCanSetBitrate _ _
  | .rtnlLinkChange _ _ _ | .rtnlLinkAdd _ _ => Int
  | .rtnlLinkGetFlags _ | .rtnlLinkIsCan _ => Bool
  | .ifNametoindex _ => Except Int Nat
  | _ => Unit

/-- What can go wrong in a call, where the call is of a kind that it can go wrong in. -/
structure LibnlFault where
  fails : Bool
  refill : Refill
  refusal : Option Nat
  add : AddOutcome
  errno : Option Int

instance : Nonempty LibnlFault := ⟨⟨false, .ok, none, .refused 0, none⟩⟩

/-- `ENODEV` -/
def noDevice : Int := 19

structure Libnl where
  kernel : LinkTable
  arena : Ownership.Arena NlObject
  misused : Bool

namespace Libnl

variable (s : Libnl)

def object (p : Nat) : Option NlObject := s.arena.objects p

def alloc (object : NlObject) : Option Nat × Libnl :=
  (some s.arena.next, { s with arena := s.arena.alloc object })

def release (p : Nat) : Libnl := { s with arena := s.arena.release p }

def write (p : Nat) (object : NlObject) : Libnl := { s with arena := s.arena.write p object }

def misuse : Libnl := { s with misused := true }

/-- `nl_cache_refill` -/
def refillCache (socket cache : Nat) (refill : Refill) : Int × Libnl :=
  match s.object socket, s.object cache with
  | some (.socket true), some (.cache _) =>
    match refill with
    | .ok => (0, s.write cache (.cache s.kernel.links))
    | .refused => (-1, s)
    | .cutShort count => (-1, s.write cache (.cache (s.kernel.links.take count)))
  | _, _ => (-1, s.misuse)

/-- A function that writes into a request. -/
def setRequest (p : Nat) (set : LinkRequest → LinkRequest) : Libnl :=
  match s.object p with
  | some (.request request) => s.write p (.request (set request))
  | _ => s.misuse

def changeLink (socket link change : Nat) (refusal : Option Nat) : Int × Libnl :=
  match s.object socket, s.object link, s.object change with
  | some (.socket true), some (.link link), some (.request request) =>
    match request.change? with
    | some change =>
      let (result, kernel) := s.kernel.rtnlLinkChange link change refusal
      (result, { s with kernel })
    | none => (-1, s.misuse)
  | _, _, _ => (-1, s.misuse)

/-- Without a type in the request the kernel knows no link to create. -/
def addLink (socket link : Nat) (outcome : AddOutcome) : Int × Libnl :=
  match s.object socket, s.object link with
  | some (.socket true), some (.request request) =>
    match request.name, request.kind with
    | some name, some .vcan =>
      let (result, kernel) := s.kernel.rtnlLinkAdd name outcome
      (result, { s with kernel })
    | some name, none =>
      match outcome with
      | .refused code => (-(code + 1), s)
      | .accepted _ _ =>
        if (s.kernel.byName (name.take (ifNameSize - 1))).isSome then (0, s) else (-10, s)
    | _, _ => (-1, s.misuse)
  | _, _ => (-1, s.misuse)

def handle : Transition.Handler LibnlCall.Answer Libnl LibnlFault
  | .nlSocketAlloc, fault, s => if fault.fails then (none, s) else s.alloc (.socket false)
  | .nlConnect socket, fault, s =>
    match s.object socket with
    | some (.socket false) => if fault.fails then (-1, s) else (0, s.write socket (.socket true))
    | _ => (-1, s.misuse)
  | .nlClose socket, _, s =>
    match s.object socket with
    | some (.socket _) => ((), s.write socket (.socket false))
    | _ => ((), s.misuse)
  | .nlSocketFree socket, _, s =>
    match s.object socket with
    | some (.socket _) => ((), s.release socket)
    | _ => ((), s.misuse)
  | .rtnlLinkAllocCache socket, fault, s =>
    match s.object socket with
    | some (.socket true) => if fault.fails then (none, s) else s.alloc (.cache s.kernel.links)
    | _ => (none, s.misuse)
  | .nlCacheRefill socket cache, fault, s => s.refillCache socket cache fault.refill
  | .nlCacheFree cache, _, s =>
    match s.object cache with
    | some (.cache _) => ((), s.release cache)
    | _ => ((), s.misuse)
  | .rtnlLinkGetByName cache name, _, s =>
    match s.object cache with
    | some (.cache links) =>
      match links.find? fun link => link.name = name with
      | none => (none, s)
      | some link => s.alloc (.link link)
    | _ => (none, s.misuse)
  | .rtnlLinkGetFlags link, _, s =>
    match s.object link with
    | some (.link link) => (link.up, s)
    | _ => (false, s.misuse)
  | .rtnlLinkIsCan link, _, s =>
    match s.object link with
    | some (.link link) => (link.kind = .can, s)
    | _ => (false, s.misuse)
  | .rtnlLinkPut link, _, s =>
    match s.object link with
    | some (.link _) | some (.request _) => ((), s.release link)
    | _ => ((), s.misuse)
  | .rtnlLinkAlloc, fault, s => if fault.fails then (none, s) else s.alloc (.request {})
  | .rtnlLinkSetName link name, _, s => ((), s.setRequest link ({ · with name := some name }))
  | .rtnlLinkSetType link kind, fault, s =>
    if fault.fails then (-1, s.setRequest link id)
    else (0, s.setRequest link ({ · with kind := some kind }))
  | .rtnlLinkSetFlags link, _, s => ((), s.setRequest link ({ · with flags := some true }))
  | .rtnlLinkUnsetFlags link, _, s => ((), s.setRequest link ({ · with flags := some false }))
  | .rtnlLinkCanSetBitrate link bitrate, _, s =>
    -- only a request of the type `can` has a place for a bitrate
    (0, s.setRequest link fun request =>
      if request.kind = some .can then { request with bitrate := some bitrate } else request)
  | .rtnlLinkChange socket link change, fault, s => s.changeLink socket link change fault.refusal
  | .rtnlLinkAdd socket link, fault, s => s.addLink socket link fault.add
  | .ifNametoindex name, fault, s =>
    match fault.errno.filter (· ≠ noDevice), s.kernel.byName (ioctlName name) with
    | some errno, _ => (.error errno, s)
    | none, some link => (.ok link.index, s)
    | none, none => (.error noDevice, s)

end Libnl
end HyCAN
