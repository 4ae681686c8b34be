import HyCAN.Daemon.LinkTable

/-! The messages between a client and the daemon. A request crosses the socket as
the raw bytes of its struct, so the daemon may receive any bytes in each field. -/
namespace HyCAN

inductive RequestType where
  | setInterfaceState
  | checkInterfaceState
  | validateCanHardware
  | createVcanInterface
  | clientRegister
  | interfaceExists
  | interfaceIsUp
  deriving DecidableEq

namespace RequestType

def toByte : RequestType → UInt8
  | .setInterfaceState => 0
  | .checkInterfaceState => 1
  | .validateCanHardware => 2
  | .createVcanInterface => 3
  | .clientRegister => 4
  | .interfaceExists => 5
  | .interfaceIsUp => 6

/-- A byte without an enumerator is still a value of the type. -/
def ofByte (byte : UInt8) : Option RequestType :=
  [setInterfaceState, checkInterfaceState, validateCanHardware, createVcanInterface, clientRegister,
    interfaceExists, interfaceIsUp].find? fun operation => operation.toByte = byte

@[simp] theorem ofByte_toByte (operation : RequestType) : ofByte operation.toByte = some operation := by
  cases operation <;> rfl

end RequestType

structure NetlinkRequest where
  operation : UInt8
  up : Bool
  setBitrate : Bool
  bitrate : UInt32
  interfaceName : Vector UInt8 ifNameSize

namespace NetlinkRequest

/-- `strncpy` of the first `IFNAMSIZ - 1` bytes at `name.data()`, and a NUL. The
copy does not know the length of the view, only the memory it points to. -/
def nameField (data : List UInt8) : Vector UInt8 ifNameSize :=
  ⟨(CString.fill (ifNameSize - 1) data).toArray, by simp [ifNameSize]⟩

/-- The constructor for a state change. -/
def ofState (data : List UInt8) (state bitrateFlag : Bool) (rate : UInt32) : NetlinkRequest where
  operation := RequestType.setInterfaceState.toByte
  up := state
  setBitrate := bitrateFlag
  bitrate := rate
  interfaceName := nameField data

/-- The constructor for query operations. -/
def ofQuery (operation : RequestType) (data : List UInt8) : NetlinkRequest where
  operation := operation.toByte
  up := false
  setBitrate := false
  bitrate := 0
  interfaceName := nameField data

/-- `sizeof(NetlinkRequest)`: three single bytes, one of padding, the bitrate, and
the name. -/
def size : Nat := 24

/-- The bytes copied over a request, the bitrate in little-endian order. A `bool` whose byte is
neither 0 nor 1, which is undefined in the source's language, is read as true. -/
def ofBytes (bytes : Vector UInt8 size) : NetlinkRequest where
  operation := bytes[0]
  up := bytes[1] ≠ 0
  setBitrate := bytes[2] ≠ 0
  bitrate := UInt32.ofNat
    (bytes[4].toNat + bytes[5].toNat * 2 ^ 8 + bytes[6].toNat * 2 ^ 16 + bytes[7].toNat * 2 ^ 24)
  interfaceName := (bytes.drop 8).cast rfl

/-- The implicit conversion of the name to a `std::string_view`, with the bytes
that follow the request in memory. -/
def name (request : NetlinkRequest) (after : List UInt8) : List UInt8 :=
  CString.read (request.interfaceName.toList ++ after)

/-- A name field that a constructor has filled is read back within the field. -/
theorem read_nameField (data after : List UInt8) :
    CString.read ((nameField data).toList ++ after) = (CString.read data).take (ifNameSize - 1) := by
  have hField : (nameField data).toList = CString.fill (ifNameSize - 1) data := rfl
  rw [hField, CString.read_append_of_mem (CString.zero_mem_fill _ _), CString.read_fill]

end NetlinkRequest

structure NetlinkResponse where
  result : Int
  linkExists : Bool
  isUp : Bool
  errorMessage : Vector UInt8 256

namespace NetlinkResponse

/-- The constructor with a message, which is cut to 255 bytes. -/
def ofMessage (result : Int) (message : List UInt8) : NetlinkResponse :=
  ⟨result, false, false, ⟨(CString.fill 255 message).toArray, by simp⟩⟩

/-- The constructor for query responses. -/
def ofQuery (result : Int) (linkExists isUp : Bool) : NetlinkResponse :=
  ⟨result, linkExists, isUp, Vector.replicate 256 0⟩

def errorText (response : NetlinkResponse) : List UInt8 :=
  CString.read response.errorMessage.toList

@[simp] theorem ofMessage_result (result : Int) (message : List UInt8) :
    (ofMessage result message).result = result := rfl

@[simp] theorem ofQuery_result (result : Int) (linkExists isUp : Bool) :
    (ofQuery result linkExists isUp).result = result := rfl

@[simp] theorem ofQuery_isUp (result : Int) (linkExists isUp : Bool) :
    (ofQuery result linkExists isUp).isUp = isUp := rfl

end NetlinkResponse

/-- The answer to a registration. -/
structure ClientRegisterResponse where
  result : Int
  clientChannelName : Vector UInt8 64
  deriving DecidableEq

namespace ClientRegisterResponse

def of (result : Int) (channelName : List UInt8) : ClientRegisterResponse :=
  ⟨result, ⟨(CString.fill 63 channelName).toArray, by simp⟩⟩

/-- The field as the string that the client assigns it to. -/
def channelName (response : ClientRegisterResponse) : List UInt8 :=
  CString.read response.clientChannelName.toList

theorem channelName_of {result : Int} {name : List UInt8} (hText : 0 ∉ name)
    (hLength : name.length ≤ 63) : (of result name).channelName = name :=
  CString.read_fill_of_length_le hText hLength

end ClientRegisterResponse
end HyCAN
