import HyCAN.Client.VirtualUp

/-! Any number of clients that bring up the same vcan interface at the same time. The
daemon handles one request after the other, in any order, so a client's knowledge of
whether the link exists may be old when it acts on it. -/
namespace HyCAN

open Transition NetlinkManager

section Calls

theorem NetlinkClient.bounded_requestOnly {Value : Type} (request : NetlinkRequest)
    (failure : List UInt8) (value : NetlinkResponse → Value) :
    (requestOnly request failure value).Bounded 1 := by
  refine .ask _ _ 0 fun answer => ?_
  cases answer with
  | error error => exact .done _ _
  | ok response =>
      dsimp only
      split_ifs <;> exact .done _ _

theorem NetlinkClient.bounded_fallbackState (interfaceName : StringView) (state : Bool) :
    (fallbackState interfaceName state).Bounded 1 := by
  refine .ask _ _ 0 fun result => ?_
  dsimp only
  split_ifs <;> exact .done _ _

theorem NetlinkClient.bounded_fallbackSystemCall (interfaceName : StringView) (state : Bool)
    (bitrate : UInt32) : (fallbackSystemCall interfaceName state bitrate).Bounded 2 := by
  have hLast := bounded_fallbackState interfaceName state
  unfold fallbackSystemCall
  split_ifs
  · refine .ask _ _ 1 fun result => ?_
    split_ifs
    · exact .done _ _
    · exact hLast
  · exact hLast.add 1

theorem NetlinkClient.bounded_setInterfaceState (interfaceName : StringView) (up : Bool)
    (bitrate : UInt32) : (setInterfaceState interfaceName up bitrate).Bounded 3 := by
  refine .ask _ _ 2 fun answer => ?_
  cases answer with
  | error error => exact bounded_fallbackSystemCall interfaceName up bitrate
  | ok response =>
      dsimp only
      split_ifs <;> exact .done _ _

theorem IPCManager.bounded_ensureInitialized {Value : Type}
    {operation : ClientProgram (Except Error Value)} {bound : Nat} (h : operation.Bounded bound) :
    (ensureInitialized operation).Bounded (bound + 1) := by
  refine .ask _ _ bound fun answer => ?_
  cases answer with
  | some what => exact .done _ _
  | none => exact h

/-- Two calls to see whether the link exists, and two to create it. -/
theorem Interface.bounded_ensureLink (type : InterfaceType) (name : List UInt8) :
    (ensureLink type name).Bounded 4 := by
  refine (IPCManager.bounded_ensureInitialized
    (NetlinkClient.bounded_requestOnly _ _ _)).bind fun result => ?_
  rcases result with error | (_ | _)
  · exact .done _ _
  · cases type with
    | vcan => exact IPCManager.bounded_ensureInitialized (NetlinkClient.bounded_requestOnly _ _ _)
    | can => exact .done _ _
  · exact .done _ _

/-- And at most four to set the state, those of the fallback included. -/
theorem Interface.bounded_linkUp (type : InterfaceType) (name : List UInt8) (bitrate : UInt32) :
    (linkUp type name bitrate).Bounded 8 := by
  refine (bounded_ensureLink type name).bind fun result => ?_
  cases result with
  | error error => exact .done _ _
  | ok done =>
      exact IPCManager.bounded_ensureInitialized
        (NetlinkClient.bounded_setInterfaceState (.ofString name) true bitrate)

end Calls

/-- There is exactly one link of the name, a vcan link that is up, and the other links
are as they were. -/
structure BroughtUp (name : List UInt8) (start after : LinkTable) : Prop where
  one : ∃ link, link.kind = .vcan ∧ link.up = true ∧
    ∀ other, other ∈ after.links ∧ other.name = name ↔ other = link
  others : ∀ other, other.name ≠ name → (other ∈ after.links ↔ other ∈ start.links)

theorem BroughtUp.of_underway {name : List UInt8} {start : LinkTable} {manager : NetlinkManager}
    (h : VirtualUp.Underway name start manager) (hUp : VirtualUp.IsUp name manager) :
    BroughtUp name start manager.kernel := by
  obtain ⟨link, hLink, hIsUp⟩ := hUp
  refine ⟨⟨link, h.kind link hLink, hIsUp, fun other => ?_⟩, h.others⟩
  rw [← LinkTable.byName_eq_some_iff, hLink, Option.some.injEq]
  exact eq_comm

namespace VirtualUp

variable (texts : ErrorTexts) {Client : Type} [DecidableEq Client] {name : List UInt8}

/-- All clients at the beginning of `up`, each with its own bitrate. -/
def startTogether (name : List UInt8) (bitrate : Client → UInt32) (manager : NetlinkManager) :
    Pool ClientCall.Answer Client (Except Error Unit) NetlinkManager where
  programs client := Interface.linkUp .vcan name (bitrate client)
  state := manager

/-- Whatever the order of the requests, a client that is done has succeeded and finds
the one link up; a client that is not has calls left, and can make the next. -/
theorem concurrent_up (hName : PlainName name) (hPrefix : ¬HasCanPrefix name)
    (bitrate : Client → UInt32) (manager : NetlinkManager)
    (hKind : ∀ link, manager.kernel.byName name = some link → link.kind = .vcan)
    (actions : List (Client × KernelChoice))
    (pool : Pool ClientCall.Answer Client (Except Error Unit) NetlinkManager)
    (hRun : (Pool.machine (reachable texts)).run (startTogether name bitrate manager) actions =
      some pool) (client : Client) :
    pool.programs client = .done (.ok ()) ∧ BroughtUp name manager.kernel pool.state.kernel ∨
      actions.countP (·.1 = client) < 8 ∧
        ∀ choice, (Pool.step (reachable texts) pool (client, choice)).isSome := by
  have hUnderway : Underway name manager.kernel manager := ⟨fun _ _ => Iff.rfl, hKind⟩
  obtain ⟨left, hLeft, hCount⟩ := Pool.count_le
    (Interface.bounded_linkUp .vcan name (bitrate client)) hRun
  cases hProgram : pool.programs client with
  | done result =>
      obtain ⟨hOk, hAfter, hUp⟩ := Pool.outline
        (fun client => outline_linkUp texts hName hPrefix (bitrate client))
        (fun _ => stable_underway) (fun _ => hUnderway) ⟨actions, hRun⟩ hProgram
      exact .inl ⟨by rw [hOk], .of_underway hAfter hUp⟩
  | ask call next =>
      rw [hProgram] at hLeft
      cases hLeft with
      | ask _ _ bound _ =>
          refine .inr ⟨by omega, fun choice => Pool.step_isSome_iff.mpr fun result hDone => ?_⟩
          rw [hProgram] at hDone
          cases hDone

/-- Two clients on a host without links, call by call in turn. -/
def inTurn : List (Bool × KernelChoice) :=
  (List.range 12).map fun k => (k % 2 == 0, ⟨[], 1, 0⟩)

/-- Both find the link missing and have it created. -/
theorem concurrent_up_in_turn :
    ∃ pool, (Pool.machine (reachable ⟨fun _ => [], fun _ => []⟩)).run
        (startTogether (ascii "vcan_test") (fun _ : Bool => 500000) ⟨.empty, []⟩) inTurn = some pool ∧
      (pool.programs true = .done (.ok ()) ∧
          BroughtUp (ascii "vcan_test") .empty pool.state.kernel ∨
        inTurn.countP (·.1 = true) < 8 ∧
          ∀ choice, (Pool.step (reachable ⟨fun _ => [], fun _ => []⟩) pool (true, choice)).isSome) := by
  have hSome : ((Pool.machine (reachable ⟨fun _ => [], fun _ => []⟩)).run
      (startTogether (ascii "vcan_test") (fun _ : Bool => 500000) ⟨.empty, []⟩) inTurn).isSome = true := by
    decide +kernel
  obtain ⟨pool, hRun⟩ := Option.isSome_iff_exists.mp hSome
  exact ⟨pool, hRun, concurrent_up _ (by decide +kernel) (by decide +kernel) _ _
    (fun link hLink => by simp [LinkTable.byName, LinkTable.empty] at hLink) _ pool hRun true⟩

end VirtualUp
end HyCAN
