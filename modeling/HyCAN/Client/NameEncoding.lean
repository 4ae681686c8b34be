import HyCAN.Client.ApiCall

/-! What comes of an interface name on its way into a request, and beside it into the
look-up of the CAN socket: which views the field renders, and when both sides
speak of the same link. -/
namespace HyCAN

open NetlinkManager Transition

/-- Behind the text there is a NUL at once, or the field has no room for more. -/
def StringView.Terminated (view : StringView) : Prop :=
  view.text.length = ifNameSize - 1 ∨ view.behind.head? = some 0

instance (view : StringView) : Decidable view.Terminated := inferInstanceAs (Decidable (_ ∨ _))

/-- The view with more memory behind it. -/
def StringView.before (view : StringView) (beyond : List UInt8) : StringView :=
  ⟨view.text, view.behind ++ beyond⟩

/-- Each constructor makes a field of the view that the daemon reads the text from. -/
def Encodes (view : StringView) : Prop :=
  (∀ state bitrateFlag rate after,
      (NetlinkRequest.ofState view.data state bitrateFlag rate).name after = view.text) ∧
    ∀ operation after, (NetlinkRequest.ofQuery operation view.data).name after = view.text

/-- The operations of the client and of its manager are the same for both views. -/
def SameOperations (first second : StringView) : Prop :=
  (∀ up bitrate, NetlinkClient.setInterfaceState first up bitrate =
      NetlinkClient.setInterfaceState second up bitrate ∧
    IPCManager.set first up bitrate = IPCManager.set second up bitrate) ∧
  (NetlinkClient.interfaceExists first = NetlinkClient.interfaceExists second ∧
    IPCManager.linkExists first = IPCManager.linkExists second) ∧
  (NetlinkClient.interfaceIsUp first = NetlinkClient.interfaceIsUp second ∧
    IPCManager.isUp first = IPCManager.isUp second) ∧
  (NetlinkClient.createVcanInterface first = NetlinkClient.createVcanInterface second ∧
    IPCManager.createVcan first = IPCManager.createVcan second)

section Encoding

variable {view first second : StringView}

theorem encodes_iff_field : Encodes view ↔ ApiCall.field view = view.text := by
  constructor
  · intro hEncodes
    rw [← hEncodes.1 true true 0 []]
    exact (NetlinkRequest.read_nameField view.data []).symm
  · intro hField
    exact ⟨fun _ _ _ after => (NetlinkRequest.read_nameField view.data after).trans hField,
      fun _ after => (NetlinkRequest.read_nameField view.data after).trans hField⟩

/-- The copy into the field is the text, and what of the memory behind it still fits. -/
theorem field_eq_append (hText : 0 ∉ view.text) (hLength : view.text.length ≤ ifNameSize - 1) :
    ApiCall.field view =
      view.text ++ (CString.read view.behind).take (ifNameSize - 1 - view.text.length) := by
  rw [ApiCall.field, StringView.data, CString.read_append_of_not_mem hText, List.take_append,
    List.take_of_length_le hLength]

/-- The field renders the text exactly if there is no room or nothing behind it. -/
theorem encodes_iff_read (hText : 0 ∉ view.text) (hLength : view.text.length ≤ ifNameSize - 1) :
    Encodes view ↔ view.text.length = ifNameSize - 1 ∨ CString.read view.behind = [] := by
  rw [encodes_iff_field, field_eq_append hText hLength, List.append_right_eq_self, List.take_eq_nil_iff]
  constructor
  · rintro (hFull | hNothing)
    · exact .inl (by omega)
    · exact .inr hNothing
  · rintro (hFull | hNothing)
    · exact .inl (by omega)
    · exact .inr hNothing

theorem encodes_before_iff (hText : 0 ∉ view.text) (hLength : view.text.length ≤ ifNameSize - 1) :
    (∀ beyond, Encodes (view.before beyond)) ↔ view.Terminated := by
  have hRead (beyond : List UInt8) : Encodes (view.before beyond) ↔
      view.text.length = ifNameSize - 1 ∨ CString.read (view.behind ++ beyond) = [] :=
    encodes_iff_read hText hLength
  constructor
  · intro hEncodes
    rcases (hRead [1]).mp (hEncodes [1]) with hFull | hNothing
    · exact .inl hFull
    · right
      cases hBehind : view.behind with
      | nil => simp [hBehind, CString.read] at hNothing
      | cons byte rest =>
          rw [hBehind, List.cons_append] at hNothing
          by_cases hZero : byte = 0
          · rw [hZero, List.head?_cons]
          · rw [CString.read_cons_of_ne hZero] at hNothing
            cases hNothing
  · rintro (hFull | hHead) beyond
    · exact (hRead beyond).mpr (.inl hFull)
    · obtain ⟨rest, hBehind⟩ := List.head?_eq_some_iff.mp hHead
      exact (hRead beyond).mpr (.inr (by rw [hBehind, List.cons_append, CString.read_cons_zero]))

/-- Only the text and the field of a view go into its operations. -/
theorem sameOperations_of_field (hText : first.text = second.text)
    (hField : ApiCall.field first = ApiCall.field second) : SameOperations first second := by
  have hName : NetlinkRequest.nameField first.data = NetlinkRequest.nameField second.data := by
    simp only [NetlinkRequest.nameField, CString.fill_congr hField]
  have hQuery (operation : RequestType) :
      NetlinkRequest.ofQuery operation first.data = NetlinkRequest.ofQuery operation second.data := by
    rw [NetlinkRequest.ofQuery, NetlinkRequest.ofQuery, hName]
  have hState (up : Bool) (bitrate : UInt32) : NetlinkClient.stateRequest first up bitrate =
      NetlinkClient.stateRequest second up bitrate := by
    simp only [NetlinkClient.stateRequest, NetlinkRequest.ofState, StringView.startsWith, hText, hName]
  obtain ⟨text, behind⟩ := first
  obtain ⟨_, other⟩ := second
  obtain rfl : text = _ := hText
  have hFallback (up : Bool) (bitrate : UInt32) :
      NetlinkClient.fallbackSystemCall ⟨text, behind⟩ up bitrate =
        NetlinkClient.fallbackSystemCall ⟨text, other⟩ up bitrate := rfl
  have hSet (up : Bool) (bitrate : UInt32) : NetlinkClient.setInterfaceState ⟨text, behind⟩ up bitrate =
      NetlinkClient.setInterfaceState ⟨text, other⟩ up bitrate := by
    rw [NetlinkClient.setInterfaceState, NetlinkClient.setInterfaceState, hState]
    congr 1
    funext answer
    cases answer with
    | error error => exact hFallback up bitrate
    | ok response => rfl
  have hExists : NetlinkClient.interfaceExists ⟨text, behind⟩ =
      NetlinkClient.interfaceExists ⟨text, other⟩ := by
    rw [NetlinkClient.interfaceExists, NetlinkClient.interfaceExists, hQuery]
  have hIsUp : NetlinkClient.interfaceIsUp ⟨text, behind⟩ =
      NetlinkClient.interfaceIsUp ⟨text, other⟩ := by
    rw [NetlinkClient.interfaceIsUp, NetlinkClient.interfaceIsUp, hQuery]
  have hCreate : NetlinkClient.createVcanInterface ⟨text, behind⟩ =
      NetlinkClient.createVcanInterface ⟨text, other⟩ := by
    rw [NetlinkClient.createVcanInterface, NetlinkClient.createVcanInterface, hQuery]
  refine ⟨fun up bitrate => ⟨hSet up bitrate, ?_⟩, ⟨hExists, ?_⟩, ⟨hIsUp, ?_⟩, ⟨hCreate, ?_⟩⟩
  · rw [IPCManager.set, IPCManager.set, hSet]
  · rw [IPCManager.linkExists, IPCManager.linkExists, hExists]
  · rw [IPCManager.isUp, IPCManager.isUp, hIsUp]
  · rw [IPCManager.createVcan, IPCManager.createVcan, hCreate]

end Encoding

/-- Whatever memory follows, the fields of two views with the same text read back as the
text, and the operations on both send the same requests, exactly if both views end
where their text does. -/
theorem encoding_depends_on_text_iff {first second : StringView} (hText : 0 ∉ first.text)
    (hLength : first.text.length ≤ ifNameSize - 1) (hSame : first.text = second.text) :
    (∀ beyond other, Encodes (first.before beyond) ∧ Encodes (second.before other) ∧
        SameOperations (first.before beyond) (second.before other)) ↔
      first.Terminated ∧ second.Terminated := by
  rw [← encodes_before_iff hText hLength, ← encodes_before_iff (hSame ▸ hText) (hSame ▸ hLength)]
  constructor
  · intro hBoth
    exact ⟨fun beyond => (hBoth beyond []).1, fun other => (hBoth [] other).2.1⟩
  · rintro ⟨hFirst, hSecond⟩ beyond other
    refine ⟨hFirst beyond, hSecond other, sameOperations_of_field hSame ?_⟩
    rw [encodes_iff_field.mp (hFirst beyond), encodes_iff_field.mp (hSecond other)]
    exact hSame

/-- A string of its own, and the beginning of a longer one. -/
theorem encoding_depends_on_text_can0 :
    (∀ beyond other, Encodes (StringView.before ⟨ascii "can0", [0]⟩ beyond) ∧
        Encodes (StringView.before ⟨ascii "can0", ascii "1"⟩ other) ∧
        SameOperations (StringView.before ⟨ascii "can0", [0]⟩ beyond)
          (StringView.before ⟨ascii "can0", ascii "1"⟩ other)) ↔
      StringView.Terminated ⟨ascii "can0", [0]⟩ ∧ StringView.Terminated ⟨ascii "can0", ascii "1"⟩ :=
  encoding_depends_on_text_iff (by decide) (by decide) rfl

/-- The first four characters of `can01` are sent as `can01`. -/
theorem view_sent_with_what_follows :
    ¬∀ view : StringView, 0 ∉ view.text → view.text.length ≤ ifNameSize - 1 → Encodes view := by
  intro hClaim
  have hEncodes := hClaim ⟨ascii "can0", ascii "1" ++ [0]⟩ (by decide) (by decide)
  exact absurd (encodes_iff_field.mp hEncodes) (by decide)

/-- The call looks the link up by the name that the socket looks it up by, and both sides
take the name for that of a CAN interface, or neither does. -/
def ResolvesAlike (interfaceName : List UInt8) : ClientCall → Prop
  | .sendRequest request => ∀ after, request.name after = Interface.ifrName interfaceName ∧
      (HasCanPrefix (request.name after) ↔
        (StringView.ofString interfaceName).startsWith (ascii "can") = true)
  | .interfaceIndex ifrName => ifrName = Interface.ifrName interfaceName
  | .makeClient | .system _ => True

section Resolution

variable {interfaceName : List UInt8}

theorem resolvesAlike_of_name {request : NetlinkRequest}
    (h : ∀ after, request.name after = ApiCall.field (.ofString interfaceName)) :
    ResolvesAlike interfaceName (.sendRequest request) := by
  intro after
  rw [h after, ApiCall.ifrName_eq, ApiCall.hasCanPrefix_field]
  exact ⟨rfl, Iff.rfl⟩

theorem resolvesAlike_query {Value : Type} (operation : RequestType) (failure : List UInt8)
    (value : NetlinkResponse → Value) :
    (IPCManager.ensureInitialized (NetlinkClient.requestOnly
      (.ofQuery operation (StringView.ofString interfaceName).data) failure value)).Uses
        (ResolvesAlike interfaceName) := by
  apply IPCManager.uses_ensureInitialized trivial
  apply NetlinkClient.uses_requestOnly
  exact resolvesAlike_of_name fun after => NetlinkRequest.read_nameField _ after

theorem resolvesAlike_set (up : Bool) (bitrate : UInt32) :
    (IPCManager.set (.ofString interfaceName) up bitrate).Uses (ResolvesAlike interfaceName) := by
  apply IPCManager.uses_ensureInitialized trivial
  apply NetlinkClient.uses_setInterfaceState_iff.mpr
  constructor
  · exact resolvesAlike_of_name (NetlinkClient.name_stateRequest _ up bitrate)
  · exact NetlinkClient.uses_fallbackSystemCall_iff.mpr ⟨fun _ _ => trivial, trivial⟩

theorem resolvesAlike_up (type : InterfaceType) (bitrate : UInt32) :
    (Interface.up type interfaceName bitrate).Uses (ResolvesAlike interfaceName) := by
  have hEnsure : (Interface.ensureLink type interfaceName).Uses (ResolvesAlike interfaceName) := by
    apply (resolvesAlike_query .interfaceExists _ _).bind
    intro result
    rcases result with error | (_ | _)
    · exact .done _
    · cases type with
      | vcan => exact resolvesAlike_query .createVcanInterface _ _
      | can => exact .done _
    · exact .done _
  apply (hEnsure.bind fun result => ?_).bind fun result => ?_
  · cases result with
    | error error => exact .done _
    | ok done => exact resolvesAlike_set true bitrate
  · cases result with
    | error error => exact .done _
    | ok done =>
        refine .ask rfl fun answer => ?_
        cases answer <;> exact .done _

end Resolution

/-- All that an interface does, for a name of any length and with any bytes, concerns the
link that its CAN socket is bound to. -/
theorem interface_resolves_name_alike (type : InterfaceType) (interfaceName : List UInt8)
    (bitrate : UInt32) :
    (Interface.up type interfaceName bitrate).Uses (ResolvesAlike interfaceName) ∧
      (Interface.down interfaceName).Uses (ResolvesAlike interfaceName) ∧
      (IPCManager.linkExists (.ofString interfaceName)).Uses (ResolvesAlike interfaceName) ∧
      (IPCManager.isUp (.ofString interfaceName)).Uses (ResolvesAlike interfaceName) :=
  ⟨resolvesAlike_up type bitrate, resolvesAlike_set false IPCManager.defaultBitrate,
    resolvesAlike_query .interfaceExists _ _, resolvesAlike_query .interfaceIsUp _ _⟩

end HyCAN
