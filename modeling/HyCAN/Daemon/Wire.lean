import HyCAN.Client.NetlinkClient
import HyCAN.Daemon.RequestReading
import HyCAN.ByteStream.Layout

/-! The four messages as bytes, and the places that receive them. Each calls `recv` once
and compares what it returns with the size of the struct. -/
namespace HyCAN

open ByteStream

structure ClientRegisterRequest where
  clientPid : Int32

/-- The result of a response is an `int`. -/
abbrev StoredRegisterResponse := { response : ClientRegisterResponse // IsInt response.result }

abbrev StoredResponse := { response : NetlinkResponse // IsInt response.result }

def boolByte (value : Bool) : UInt8 :=
  if value then 1 else 0

theorem boolByte_ne_zero (value : Bool) : decide (boolByte value ≠ 0) = value := by
  cases value <;> rfl

theorem intOf_intBytes {value : Int} (h : IsInt value) :
    ∃ first second third fourth, intBytes value = [first, second, third, fourth] ∧
      intOf first second third fourth = value := by
  refine ⟨_, _, _, _, rfl, ?_⟩
  rw [intOf, wordOf_wordBytes, Int32.toInt32_toUInt32]
  exact Int32.toInt_ofInt_of_le h.1 h.2

def ClientRegisterRequest.layout : Layout ClientRegisterRequest where
  size := 4
  encode request _ := wordBytes request.clientPid.toUInt32
  decode
    | [first, second, third, fourth] => some ⟨(wordOf first second third fourth).toInt32⟩
    | _ => none
  length_encode _ _ := rfl
  decode_encode := by
    intro request padding
    simp only [wordBytes, wordOf_wordBytes, Int32.toInt32_toUInt32]
  length_of_decode := by
    intro bytes request h
    split at h
    · rfl
    · cases h

def ClientRegisterResponse.layout : Layout StoredRegisterResponse where
  size := 68
  encode response _ := intBytes response.1.result ++ response.1.clientChannelName.toList
  decode
    | first :: second :: third :: fourth :: name =>
      if h : name.length = 64 then
        some ⟨⟨intOf first second third fourth, ⟨name.toArray, h⟩⟩, isInt_intOf _ _ _ _⟩
      else none
    | _ => none
  length_encode response padding := by
    rw [List.length_append, Vector.length_toList]
    rfl
  decode_encode := by
    rintro ⟨response, hInt⟩ padding
    obtain ⟨first, second, third, fourth, hBytes, hResult⟩ := intOf_intBytes hInt
    simp only [hBytes, List.cons_append, List.nil_append, Vector.length_toList, ↓reduceDIte, hResult]
    rfl
  length_of_decode := by
    intro bytes response h
    split at h
    · split_ifs at h with hName
      simp [hName]
    · cases h

/-- The fields of a request in its memory. -/
theorem ofBytes_cons {operation up setBitrate padding first second third fourth : UInt8}
    {name : Vector UInt8 ifNameSize}
    (h : (operation :: up :: setBitrate :: padding :: first :: second :: third :: fourth ::
      name.toList).length = NetlinkRequest.size) :
    NetlinkRequest.ofBytes ⟨(operation :: up :: setBitrate :: padding :: first :: second :: third ::
        fourth :: name.toList).toArray, h⟩ =
      ⟨operation, up ≠ 0, setBitrate ≠ 0, wordOf first second third fourth, name⟩ := by
  have hName := interfaceName_ofBytes ⟨(operation :: up :: setBitrate :: padding :: first :: second ::
    third :: fourth :: name.toList).toArray, h⟩
  have hField : (NetlinkRequest.ofBytes ⟨(operation :: up :: setBitrate :: padding :: first :: second ::
      third :: fourth :: name.toList).toArray, h⟩).interfaceName = name := by
    apply Vector.toList_inj.mp
    rw [hName]
    rfl
  rw [NetlinkRequest.mk.injEq]
  exact ⟨rfl, rfl, rfl, rfl, hField⟩

/-- The four single bytes, the second word and the name. -/
def NetlinkRequest.layout : Layout NetlinkRequest where
  size := size
  encode request padding :=
    [request.operation, boolByte request.up, boolByte request.setBitrate, padding.getD 0 0] ++
      wordBytes request.bitrate ++ request.interfaceName.toList
  decode bytes := (Received.bytes bytes).request
  length_encode request padding := by
    rw [List.length_append, Vector.length_toList]
    rfl
  decode_encode := by
    intro request padding
    have hLength : ([request.operation, boolByte request.up, boolByte request.setBitrate, padding.getD 0 0] ++
        wordBytes request.bitrate ++ request.interfaceName.toList).length = size := by
      rw [List.length_append, Vector.length_toList]
      rfl
    rw [Received.request, dif_pos hLength]
    apply congrArg some
    exact (ofBytes_cons hLength).trans (by
      rw [boolByte_ne_zero, boolByte_ne_zero, wordOf_wordBytes])
  length_of_decode := by
    intro bytes request h
    rw [Received.request] at h
    split_ifs at h with hLength
    exact hLength

/-- The `int`, the two flags and the text, with two bytes of padding behind. -/
def NetlinkResponse.layout : Layout StoredResponse where
  size := 264
  encode response padding :=
    intBytes response.1.result ++ [boolByte response.1.linkExists, boolByte response.1.isUp] ++
      response.1.errorMessage.toList ++ [padding.getD 0 0, padding.getD 1 0]
  decode
    | first :: second :: third :: fourth :: linkExists :: isUp :: text =>
      if h : text.length = 258 then
        some ⟨⟨intOf first second third fourth, linkExists ≠ 0, isUp ≠ 0,
          ⟨(text.take 256).toArray, by simp [h]⟩⟩, isInt_intOf _ _ _ _⟩
      else none
    | _ => none
  length_encode response padding := by
    rw [List.length_append, List.length_append, Vector.length_toList]
    rfl
  decode_encode := by
    rintro ⟨response, hInt⟩ padding
    obtain ⟨first, second, third, fourth, hBytes, hResult⟩ := intOf_intBytes hInt
    have hText : response.errorMessage.toList.length = 256 := Vector.length_toList
    simp only [hBytes, List.cons_append, List.nil_append, List.length_append, List.length_cons,
      List.length_nil, hText, Nat.reduceAdd, ↓reduceDIte, hResult, boolByte_ne_zero]
    have hTake : (response.errorMessage.toList ++ [padding.getD 0 0, padding.getD 1 0]).take 256 =
        response.errorMessage.toList := by
      exact List.take_left' hText
    simp only [hTake]
    rfl
  length_of_decode := by
    intro bytes response h
    split at h
    · split_ifs at h with hText
      simp [hText]
    · cases h

/-- `UnixSocket::recv`, when something arrives in time. -/
def UnixSocket.recv (size : Nat) (pieces : List (List UInt8)) : Received :=
  .bytes (recvOnce size pieces)

/-- The memory of the struct, if `bytes_received` is its size. -/
def Received.decode {Value : Type} (layout : Layout Value) : Received → Option Value
  | error => none
  | bytes stored => layout.decode stored

/-- What the loop of `Daemon::run` does with a connection. -/
inductive RunOutcome where
  | nothing
  | invalidSize (log : List UInt8)
  | registration (request : ClientRegisterRequest)

def Daemon.runRegistration (received : Received) : RunOutcome :=
  match received.decode ClientRegisterRequest.layout with
  | some request => .registration request
  | none =>
    if received.count = 0 then .nothing
    else .invalidSize (ascii "Received invalid request size: " ++ Decimal.text received.count ++
      ascii " (expected: 4)")

/-- The end of `ensure_registered`, from `recv` on. -/
def NetlinkClient.registrationResponse (received : Received) : Except Error StoredRegisterResponse :=
  match received.decode ClientRegisterResponse.layout with
  | some response => .ok response
  | none => .error ⟨.netlinkBringUpError, ascii "Failed to receive registration response from daemon"⟩

/-- The end of `send_request`. -/
def NetlinkClient.requestResponse (received : Received) : Except Error StoredResponse :=
  match received.decode NetlinkResponse.layout with
  | some response => .ok response
  | none => .error ⟨.netlinkBringUpError, ascii "Failed to receive response from daemon"⟩

inductive MessageType where
  | clientRegisterRequest
  | clientRegisterResponse
  | netlinkRequest
  | netlinkResponse

namespace MessageType

abbrev Value : MessageType → Type
  | .clientRegisterRequest => ClientRegisterRequest
  | .clientRegisterResponse => StoredRegisterResponse
  | .netlinkRequest => NetlinkRequest
  | .netlinkResponse => StoredResponse

def layout : (type : MessageType) → Layout type.Value
  | .clientRegisterRequest => ClientRegisterRequest.layout
  | .clientRegisterResponse => ClientRegisterResponse.layout
  | .netlinkRequest => NetlinkRequest.layout
  | .netlinkResponse => NetlinkResponse.layout

/-- What the receiver of the message goes on with. -/
def received : (type : MessageType) → Received → Option type.Value
  | .clientRegisterRequest, stored =>
    match Daemon.runRegistration stored with
    | .registration request => some request
    | _ => none
  | .clientRegisterResponse, stored => (NetlinkClient.registrationResponse stored).toOption
  | .netlinkRequest, stored => stored.request
  | .netlinkResponse, stored => (NetlinkClient.requestResponse stored).toOption

variable (type : MessageType)

theorem size_pos : 0 < type.layout.size := by
  cases type <;> decide

/-- Each of them takes the message from the bytes, or nothing. -/
theorem received_eq_decode (stored : Received) : type.received stored = stored.decode type.layout := by
  cases type with
  | clientRegisterRequest =>
      simp only [received, Daemon.runRegistration, layout]
      cases stored.decode ClientRegisterRequest.layout with
      | some request => rfl
      | none => split_ifs <;> rfl
  | clientRegisterResponse =>
      simp only [received, NetlinkClient.registrationResponse, layout]
      cases stored.decode ClientRegisterResponse.layout <;> rfl
  | netlinkRequest => cases stored <;> rfl
  | netlinkResponse =>
      simp only [received, NetlinkClient.requestResponse, layout]
      cases stored.decode NetlinkResponse.layout <;> rfl

/-- The receiver goes on with exactly the message that was sent if and only if that was
taken by one `send` and came as one piece. -/
theorem received_iff (message : type.Value) (padding : List UInt8)
    (delivery : Delivery (type.layout.encode message padding)) :
    type.received (UnixSocket.recv type.layout.size delivery.pieces) = some message ↔
      delivery.pieces = [type.layout.encode message padding] := by
  rw [received_eq_decode]
  exact type.layout.decode_recvOnce_iff type.size_pos delivery

/-- Data of which all is sent, and arrives in two pieces. -/
def inTwo (data : List UInt8) (count : Nat) (hCount : 0 < count ∧ count < data.length) : Delivery data where
  accepted := data.length
  accepted_pos := by omega
  accepted_le := le_rfl
  pieces := [data.take count, data.drop count]
  nonempty := by
    intro hMem
    simp only [List.mem_cons, List.not_mem_nil, or_false] at hMem
    rcases hMem with hFront | hBack
    · have hLength := congrArg List.length hFront
      rw [List.length_nil, List.length_take] at hLength
      omega
    · have hLength := congrArg List.length hBack
      rw [List.length_nil, List.length_drop] at hLength
      omega
  inOrder := by simp

/-- A query whose 24 bytes come as eight and then sixteen is an invalid request. -/
theorem split_request_not_received :
    ¬∀ (type : MessageType) (message : type.Value) (padding : List UInt8)
        (delivery : Delivery (type.layout.encode message padding)),
      type.received (UnixSocket.recv type.layout.size delivery.pieces) = some message := by
  intro hClaim
  have hReceived := hClaim .netlinkRequest (.ofQuery .interfaceExists (ascii "can0")) []
    (inTwo _ 8 (by decide +kernel))
  have hNone : (MessageType.received .netlinkRequest (UnixSocket.recv 24
      (inTwo (NetlinkRequest.layout.encode (.ofQuery .interfaceExists (ascii "can0")) []) 8
        (by decide +kernel)).pieces)).isNone = true := by decide +kernel
  have hSome := congrArg Option.isNone hReceived
  exact absurd (hNone.symm.trans hSome) (by decide)

end MessageType
end HyCAN
