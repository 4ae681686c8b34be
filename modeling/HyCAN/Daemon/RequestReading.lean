import HyCAN.Daemon.NetlinkManagerSteps
import HyCAN.Text.Decimal

/-! The bytes of a request, from `recv` to `process_request`. The worker checks how
many there are and copies them over a request, so it is the sender alone who puts
the NUL into the name. -/
namespace HyCAN

/-- What `recv` has stored in the request, or its error. -/
inductive Received where
  | error
  | bytes (stored : List UInt8)

/-- `bytes_received`, which is 0 for a timeout as well. -/
def Received.count : Received → Int
  | error => -1
  | bytes stored => stored.length

/-- The request, if `bytes_received` is its size. -/
def Received.request : Received → Option NetlinkRequest
  | error => none
  | bytes stored =>
    if h : stored.length = NetlinkRequest.size then some (.ofBytes ⟨stored.toArray, h⟩) else none

/-- What the worker does with a connection before it turns to the next one. -/
inductive WorkerOutcome where
  | nothing
  | invalidSize (log : List UInt8)
  | processed (log : List UInt8) (response : NetlinkResponse) (manager : NetlinkManager)

/-- The log line for a request, with the text that its name is read as. -/
def processingLog (pid : Int32) (interfaceName : List UInt8) : List UInt8 :=
  ascii "Processing request from client " ++ Decimal.text pid.toInt ++ ascii " for interface: " ++ interfaceName

/-- The body of the loop in `client_session_worker`, from `recv` on. -/
def clientSessionWorker (texts : ErrorTexts) (pid : Int32) (manager : NetlinkManager)
    (received : Received) (after : List UInt8) (faults : RequestFaults) : WorkerOutcome :=
  if received.count = 0 then .nothing
  else match received.request with
    | none =>
      .invalidSize (ascii "Client " ++ Decimal.text pid.toInt ++
        ascii " sent invalid request size: " ++ Decimal.text received.count)
    | some request =>
      let handled := manager.processRequest texts request after faults
      .processed (processingLog pid (request.name after)) handled.1 handled.2

section Reading

variable (texts : ErrorTexts) (pid : Int32) (manager : NetlinkManager)
  (bytes : Vector UInt8 NetlinkRequest.size) (faults : RequestFaults)

/-- The field of the name: the last 16 of the 24 bytes. -/
theorem interfaceName_ofBytes :
    (NetlinkRequest.ofBytes bytes).interfaceName.toList = bytes.toList.drop 8 := by
  show ((bytes.drop 8).cast rfl).toList = bytes.toList.drop 8
  rw [Vector.toList_cast, Vector.toList_drop]

/-- As many bytes as a request has are taken for one, whatever they are. -/
theorem clientSessionWorker_bytes (after : List UInt8) :
    let request := NetlinkRequest.ofBytes bytes
    clientSessionWorker texts pid manager (.bytes bytes.toList) after faults =
      .processed (processingLog pid (request.name after))
        (manager.processRequest texts request after faults).1
        (manager.processRequest texts request after faults).2 := by
  have hLength : bytes.toList.length = NetlinkRequest.size := Vector.length_toList
  have hCount : (Received.bytes bytes.toList).count ≠ 0 := by
    rw [Received.count, hLength]
    decide
  have hRequest : (Received.bytes bytes.toList).request = some (.ofBytes bytes) := by
    rw [Received.request, dif_pos hLength]
    rfl
  simp only [clientSessionWorker, hCount, hRequest, ↓reduceIte]

/-- With a NUL in the field, the name is the text before the first one. -/
theorem name_of_mem {request : NetlinkRequest} (h : 0 ∈ request.interfaceName.toList)
    (after : List UInt8) : request.name after = CString.read request.interfaceName.toList :=
  CString.read_append_of_mem h

/-- No branch uses the memory behind the request in any other way. -/
theorem processRequest_congr {request : NetlinkRequest} {first second : List UInt8}
    (h : request.name first = request.name second) :
    manager.processRequest texts request first faults =
      manager.processRequest texts request second faults := by
  simp only [NetlinkManager.processRequest, h]

/-- The worker handles the bytes by the name in the field alone: no scan for the
terminator leaves the field, and neither the log line nor the processing depends
on what is behind it. -/
structure ReadInField : Prop where
  scan : ∀ after,
    CString.examined ((NetlinkRequest.ofBytes bytes).interfaceName.toList ++ after) ≤ ifNameSize
  served : ∀ after,
    let request := NetlinkRequest.ofBytes bytes
    let handled := manager.processRequest texts request [] faults
    clientSessionWorker texts pid manager (.bytes bytes.toList) after faults =
      .processed (processingLog pid (CString.read request.interfaceName.toList)) handled.1 handled.2

/-- What the worker accepts is read within bounds exactly if the sender put a NUL
into the field. -/
theorem read_in_field_iff :
    ReadInField texts pid manager bytes faults ↔ 0 ∈ bytes.toList.drop 8 := by
  rw [← interfaceName_ofBytes]
  have hLength : (NetlinkRequest.ofBytes bytes).interfaceName.toList.length = ifNameSize :=
    Vector.length_toList
  constructor
  · intro h
    apply CString.examined_le_iff.mp
    rw [hLength]
    exact h.scan
  · intro hMem
    have hName (after : List UInt8) := name_of_mem hMem after
    have hScan := CString.examined_le_iff.mpr hMem
    rw [hLength] at hScan
    apply ReadInField.mk hScan
    intro after request handled
    rw [clientSessionWorker_bytes, hName after]
    rw [processRequest_congr texts manager faults ((hName after).trans (hName []).symm)]

end Reading

/-- A query for a name of 16 letters makes the worker read on behind the request. -/
theorem name_read_past_field :
    ¬∀ (texts : ErrorTexts) (pid : Int32) (manager : NetlinkManager)
        (bytes : Vector UInt8 NetlinkRequest.size) (faults : RequestFaults),
      ReadInField texts pid manager bytes faults := by
  intro hClaim
  have hScan := (hClaim ⟨fun _ => [], fun _ => []⟩ 4242 ⟨⟨[], by simp, by simp, by simp⟩, []⟩
    #v[6, 0, 0, 0, 0, 0, 0, 0, 97, 97, 97, 97, 97, 97, 97, 97, 97, 97, 97, 97, 97, 97, 97, 97]
    noFaults).scan [98, 0]
  exact absurd hScan (by decide +kernel)

end HyCAN
