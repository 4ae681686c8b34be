import HyCAN.Daemon.SessionSteps
import HyCAN.Daemon.Wire

/-! The name of a client's channel on its way from the process id to the address that
the client connects to. -/
namespace HyCAN

/-- The path of the socket that clients register at. -/
def mainPath : List UInt8 :=
  socketPath (ascii "daemon")

namespace Daemon

/-- The response that names the client's channel. -/
def channelResponse (pid : Int32) : StoredRegisterResponse :=
  ⟨.of 0 (generateClientChannelName pid), show ByteStream.IsInt 0 by decide⟩

theorem zero_not_mem_channelPath (pid : Int32) : 0 ∉ channelPath pid := by
  have hPrefix : 0 ∉ ascii "/run/hycan_" := by decide +kernel
  rw [channelPath, socketPath, List.mem_append, not_or]
  exact ⟨hPrefix, zero_not_mem_channelName pid⟩

/-- The first letter of the name tells them apart. -/
theorem mainPath_ne_channelPath (pid : Int32) : mainPath ≠ channelPath pid := by
  intro hSame
  have hNames : ascii "daemon" = ascii "HyCAN_Client_" ++ Decimal.text pid.toInt :=
    List.append_cancel_left hSame
  have hPrefix : ascii "HyCAN_Client_" = 72 :: ascii "yCAN_Client_" := by decide
  have hHead := congrArg List.head? hNames
  rw [hPrefix, List.cons_append, List.head?_cons] at hHead
  exact absurd hHead (by decide)

/-- Different paths that are short enough have different addresses. -/
theorem address_ne {path other : List UInt8} {address : Vector UInt8 108}
    (hAddress : CString.read address.toList = path) (hLength : other.length < 108) (hText : 0 ∉ other)
    (hNe : other ≠ path) : UnixSocket.setupAddress other ≠ some address := by
  intro hSame
  obtain ⟨found, hFound, hRead⟩ := UnixSocket.setupAddress_eq_some hLength hText
  rw [hFound, Option.some.injEq] at hSame
  exact hNe (by rw [← hRead, hSame, hAddress])

/-- Whatever the process id is: it comes to the daemon as it was sent, the name that the
daemon makes of it comes back to the client as it was made, both sides have the
same address for it, and no other client has that address, nor has the daemon. -/
theorem channel_naming_agrees (pid : Int32) (padding : List UInt8) :
    ∃ received address,
      ClientRegisterRequest.layout.decode (ClientRegisterRequest.layout.encode ⟨pid⟩ padding) =
        some ⟨pid⟩ ∧
      ClientRegisterResponse.layout.decode
        (ClientRegisterResponse.layout.encode (channelResponse pid) padding) = some received ∧
      received.1.channelName = generateClientChannelName pid ∧
      UnixSocket.setupAddress (UnixSocket.ofName (generateClientChannelName pid) .server).socketPath =
        some address ∧
      UnixSocket.setupAddress (UnixSocket.ofName received.1.channelName .client).socketPath =
        some address ∧
      CString.read address.toList = channelPath pid ∧
      (∀ other, other ≠ pid → channelPath other ≠ channelPath pid ∧
        UnixSocket.setupAddress (channelPath other) ≠ some address) ∧
      mainPath ≠ channelPath pid ∧ UnixSocket.setupAddress mainPath ≠ some address := by
  obtain ⟨address, hAddress, hRead⟩ :=
    UnixSocket.setupAddress_eq_some (length_channelPath_lt pid) (zero_not_mem_channelPath pid)
  have hName : (channelResponse pid).1.channelName = generateClientChannelName pid :=
    channelName_response pid
  refine ⟨channelResponse pid, address, ClientRegisterRequest.layout.decode_encode _ _,
    ClientRegisterResponse.layout.decode_encode _ _, hName, hAddress, ?_, hRead, ?_,
    mainPath_ne_channelPath pid, ?_⟩
  · rw [hName]
    exact hAddress
  · intro other hNe
    have hPath : channelPath other ≠ channelPath pid := fun hSame => hNe (channelPath_injective hSame)
    exact ⟨hPath, address_ne hRead (length_channelPath_lt other) (zero_not_mem_channelPath other) hPath⟩
  · exact address_ne hRead (by decide +kernel) (by decide +kernel) (mainPath_ne_channelPath pid)

/-- The most negative process id. -/
example : generateClientChannelName (-2147483648) = ascii "HyCAN_Client_-2147483648" := by
  decide +kernel

end Daemon
end HyCAN
