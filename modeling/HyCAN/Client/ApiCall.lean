import HyCAN.Client.TouchedLinks

/-! The names that an operation of the client API looks links up by and creates links
under, and when `up` of a vcan interface succeeds. -/
namespace HyCAN

open NetlinkManager Transition

/-- The operations of the client API on one interface. -/
inductive ApiCall where
  | set (up : Bool) (bitrate : UInt32)
  | linkExists
  | isUp
  | createVcan
  | up (type : InterfaceType) (bitrate : UInt32)
  | down

namespace ApiCall

abbrev Value : ApiCall → Type
  | .linkExists | .isUp => Bool
  | _ => Unit

/-- An `Interface` has a string of its own for the name. -/
def program : (call : ApiCall) → StringView → ClientProgram (Except Error call.Value)
  | .set state bitrate, name => IPCManager.set name state bitrate
  | .linkExists, name => IPCManager.linkExists name
  | .isUp, name => IPCManager.isUp name
  | .createVcan, name => IPCManager.createVcan name
  | .up type bitrate, name => Interface.up type name.text bitrate
  | .down, name => Interface.down name.text

variable (texts : ErrorTexts)

def run (call : ApiCall) (name : StringView) (faults : Nat → CallFaults) (manager : NetlinkManager) :
    Except Error call.Value × Observed :=
  (call.program name).run (observing texts) faults ⟨manager, []⟩

/-- From no table, whatever fails, does a successful operation for the first name touch
a link that the same operation for the second one touches. -/
def NeverAlias (call : ApiCall) (first second : StringView) : Prop :=
  ∀ faults others manager, (call.run texts first faults manager).1.isOk = true →
    ∀ name ∈ (call.run texts first faults manager).2.touched,
      name ∉ (call.run texts second others manager).2.touched

/-- The name as a request carries it. -/
def field (name : StringView) : List UInt8 :=
  (CString.read name.data).take (ifNameSize - 1)

/-- The string that the operation gives to the client. -/
def view : ApiCall → StringView → StringView
  | .up _ _, name | .down, name => .ofString name.text
  | _, name => name

/-- A name that does not come into the field unchanged is refused: no operation for it
succeeds and touches a link of another name. -/
def NeverMisled (call : ApiCall) (name : StringView) : Prop :=
  field (call.view name) ≠ name.text →
    ∀ faults manager, (call.run texts name faults manager).1.isOk = true →
      ∀ other ∈ (call.run texts name faults manager).2.touched, other = name.text

/-- The name of the link that an operation finds, if the daemon answers it. -/
def lookedUp : ApiCall → StringView → List UInt8
  | .createVcan, name => ioctlName (field name)
  | call, name => field (call.view name)

/-- The names by which an operation looks links up. -/
def Looks : ApiCall → StringView → List UInt8 → Prop
  | .set _ _, name, other => other = field name ∨ other = name.text
  | .up .vcan _, name, other =>
    other = field (.ofString name.text) ∨ other = ioctlName (field (.ofString name.text))
  | call, name, other => other = call.lookedUp name

/-- The names of the links that it can create. -/
def Makes : ApiCall → StringView → List UInt8 → Prop
  | .createVcan, name, other => Creates (field name) other
  | .up .vcan _, name, other => Creates (field (.ofString name.text)) other
  | _, _, _ => False

section Uses

variable {other : List UInt8} {looked made : List UInt8 → Prop}

/-- No call of the program looks up or creates a link by another name. -/
abbrev Within {Value : Type} (program : ClientProgram Value)
    (looked made : List UInt8 → Prop) : Prop :=
  program.Uses fun call => ∀ other, ValidLinkName other →
    (call.Looks other → looked other) ∧ (call.Makes other → made other)

/-- The name by which the daemon looks for the link of a query, or of a creation. -/
def queried (operation : RequestType) (name : StringView) : List UInt8 :=
  if operation = .createVcanInterface then ioctlName (field name) else field name

theorem lookedUp_ofQuery (operation : RequestType) (name : StringView) (after : List UInt8) :
    (NetlinkRequest.ofQuery operation name.data).lookedUp after = queried operation name := by
  have hOperation : (NetlinkRequest.ofQuery operation name.data).operation = operation.toByte := rfl
  have hName : (NetlinkRequest.ofQuery operation name.data).name after = field name :=
    NetlinkRequest.name_ofQuery operation name.data after
  simp only [NetlinkRequest.lookedUp, hOperation, hName, RequestType.ofByte_toByte, Option.some.injEq, queried]

theorem lookedUp_stateRequest (name : StringView) (up : Bool) (bitrate : UInt32) (after : List UInt8) :
    (NetlinkClient.stateRequest name up bitrate).lookedUp after = field name := by
  have hOperation : RequestType.ofByte (NetlinkClient.stateRequest name up bitrate).operation =
      some .setInterfaceState := RequestType.ofByte_toByte .setInterfaceState
  rw [NetlinkRequest.lookedUp, hOperation, if_neg (by decide)]
  exact NetlinkClient.name_stateRequest name up bitrate after

theorem looks_stateRequest {name : StringView} {up : Bool} {bitrate : UInt32}
    (h : (ClientCall.sendRequest (NetlinkClient.stateRequest name up bitrate)).Looks other) :
    other = field name := by
  obtain ⟨after, hName⟩ := h
  exact hName.trans (lookedUp_stateRequest name up bitrate after)

theorem not_makes_stateRequest {name : StringView} {up : Bool} {bitrate : UInt32} :
    ¬(ClientCall.sendRequest (NetlinkClient.stateRequest name up bitrate)).Makes other := by
  rintro ⟨hOperation, _⟩
  have hSame : RequestType.ofByte RequestType.setInterfaceState.toByte = some .createVcanInterface :=
    hOperation
  exact absurd hSame (by decide)

theorem looks_ofQuery {name : StringView} {operation : RequestType}
    (h : (ClientCall.sendRequest (.ofQuery operation name.data)).Looks other) :
    other = queried operation name := by
  obtain ⟨after, hName⟩ := h
  exact hName.trans (lookedUp_ofQuery operation name after)

theorem makes_ofQuery {name : StringView} {operation : RequestType}
    (h : (ClientCall.sendRequest (.ofQuery operation name.data)).Makes other) :
    operation = .createVcanInterface ∧ Creates (field name) other := by
  obtain ⟨hOperation, after, hCreates⟩ := h
  have hSame : RequestType.ofByte operation.toByte = some .createVcanInterface := hOperation
  rw [RequestType.ofByte_toByte, Option.some.injEq] at hSame
  rw [NetlinkRequest.name_ofQuery, List.take_take, min_self] at hCreates
  exact ⟨hSame, hCreates⟩

theorem within_ensureInitialized {Value : Type} {operation : ClientProgram (Except Error Value)}
    (h : Within operation looked made) : Within (IPCManager.ensureInitialized operation) looked made :=
  IPCManager.uses_ensureInitialized (fun _ _ => ⟨False.elim, False.elim⟩) h

theorem within_query {Value : Type} {operation : RequestType} {name : StringView} {failure : List UInt8}
    {value : NetlinkResponse → Value} (hQueried : looked (queried operation name))
    (hCreates : operation = .createVcanInterface → ∀ other, Creates (field name) other → made other) :
    Within (IPCManager.ensureInitialized
      (NetlinkClient.requestOnly (.ofQuery operation name.data) failure value)) looked made := by
  apply within_ensureInitialized
  apply NetlinkClient.uses_requestOnly
  intro other _
  constructor
  · intro hLooks
    exact looks_ofQuery hLooks ▸ hQueried
  · intro hMakes
    obtain ⟨hCreate, hCreated⟩ := makes_ofQuery hMakes
    exact hCreates hCreate other hCreated

theorem within_fallback {name : StringView} {up : Bool} {bitrate : UInt32}
    (hText : ValidLinkName name.text → looked name.text) :
    Within (NetlinkClient.fallbackSystemCall name up bitrate) looked made := by
  have hCommand (command : IpCommand) (hName : command.name = name.text) :
      ∀ other, ValidLinkName other → ((ClientCall.system command).Looks other → looked other) ∧
        ((ClientCall.system command).Makes other → made other) := by
    refine fun other hValid => ⟨fun hLooks => ?_, False.elim⟩
    have hSame : other = name.text := hLooks.trans hName
    exact hSame ▸ hText (hSame ▸ hValid)
  exact NetlinkClient.uses_fallbackSystemCall_iff.mpr
    ⟨fun _ _ => hCommand (.bitrate name.text bitrate) rfl, hCommand (.state name.text up) rfl⟩

theorem within_set {name : StringView} {up : Bool} {bitrate : UInt32} (hField : looked (field name))
    (hText : ValidLinkName name.text → looked name.text) :
    Within (IPCManager.set name up bitrate) looked made := by
  apply within_ensureInitialized
  apply NetlinkClient.uses_setInterfaceState_iff.mpr
  constructor
  · intro other _
    exact ⟨fun hLooks => looks_stateRequest hLooks ▸ hField,
      fun hMakes => absurd hMakes not_makes_stateRequest⟩
  · exact within_fallback hText

/-- A name that can be that of a link comes into the field of a request unchanged. -/
theorem field_of_valid {text : List UInt8} (hText : 0 ∉ text) (hValid : ValidLinkName text) :
    field (.ofString text) = text :=
  StringView.take_read_ofString hText hValid.2.1

/-- The socket looks up the name that the field holds. -/
theorem ifrName_eq (text : List UInt8) : Interface.ifrName text = field (.ofString text) := by
  have hData : (StringView.ofString text).data = text ++ [0] := rfl
  rw [Interface.ifrName, field, hData, CString.read_append_zero, CString.read_append_zero,
    CString.read_take]

theorem within_connect {text : List UInt8} (hField : looked (ioctlName (field (.ofString text)))) :
    Within (Interface.connect text) looked made := by
  refine .ask (fun other _ => ⟨fun hLooks => ?_, False.elim⟩) fun answer => ?_
  · have hSame : other = ioctlName (Interface.ifrName text) := hLooks
    rw [ifrName_eq text] at hSame
    exact hSame ▸ hField
  · cases answer <;> exact .done _

theorem within_setText {text : List UInt8} {up : Bool} {bitrate : UInt32} (hText : 0 ∉ text)
    (hField : looked (field (.ofString text))) :
    Within (IPCManager.set (.ofString text) up bitrate) looked made :=
  within_set hField fun hValid => field_of_valid hText hValid ▸ hField

/-- `up` without its socket. A creation looks for the name up to a colon. -/
theorem within_linkUp {type : InterfaceType} {text : List UInt8} {bitrate : UInt32} (hText : 0 ∉ text)
    (hField : looked (field (.ofString text)))
    (hProbed : type = .vcan → looked (ioctlName (field (.ofString text))))
    (hCreates : type = .vcan → ∀ other, Creates (field (.ofString text)) other → made other) :
    Within (Interface.linkUp type text bitrate) looked made := by
  have hEnsure : Within (Interface.ensureLink type text) looked made := by
    refine Program.Uses.bind (within_query hField fun hCreate => by cases hCreate) fun result => ?_
    rcases result with error | (_ | _)
    · exact .done _
    · cases type with
      | vcan => exact within_query (hProbed rfl) fun _ => hCreates rfl
      | can => exact .done _
    · exact .done _
  refine Program.Uses.bind hEnsure fun result => ?_
  cases result with
  | error error => exact .done _
  | ok done => exact within_setText hText hField

end Uses

variable {call : ApiCall} {name first second : StringView} {other : List UInt8}

section Touched

variable {Value : Type} {program : ClientProgram (Except Error Value)} {looked made : List UInt8 → Prop}
  {observed : Observed}

/-- The links that are there at the start stay, each new one has a name that the program
makes, and whatever is touched is a link of the start that the program looks up, or one
that is new. -/
theorem run_within (hWithin : Within program looked made) (faults : Nat → CallFaults) :
    let left := (program.run (observing texts) faults observed).2
    observed.manager.kernel.NamesKept left.manager.kernel ∧
      (∀ other, observed.manager.kernel.byName other = none →
        (left.manager.kernel.byName other).isSome = true → made other) ∧
      ∀ other ∈ left.touched, other ∈ observed.touched ∨ ValidLinkName other ∧
        (looked other ∧ (observed.manager.kernel.byName other).isSome = true ∨
          made other ∧ observed.manager.kernel.byName other = none) := by
  refine hWithin.run (observing texts)
    (P := fun now => observed.manager.kernel.NamesKept now.manager.kernel ∧
      (∀ other, observed.manager.kernel.byName other = none →
        (now.manager.kernel.byName other).isSome = true → made other) ∧
      ∀ other ∈ now.touched, other ∈ observed.touched ∨ ValidLinkName other ∧
        (looked other ∧ (observed.manager.kernel.byName other).isSome = true ∨
          made other ∧ observed.manager.kernel.byName other = none))
    ?_ faults ⟨.refl _, fun other hNone hSome => by simp [hNone] at hSome, fun other hMem => .inl hMem⟩
  rintro asked fault now hAllowed ⟨hKept, hNew, hTouched⟩
  refine ⟨hKept.trans (observing_namesKept texts asked fault now), fun other hNone hSome => ?_,
    fun other hMem => ?_⟩
  · by_cases hNow : (now.manager.kernel.byName other).isSome = true
    · exact hNew other hNone hNow
    · rw [Option.not_isSome_iff_eq_none] at hNow
      exact (hAllowed other (valid_of_byName hSome)).2 (makes_of_new texts hNow hSome)
  · rcases mem_touched_observing texts hMem with hOld | ⟨hValid, ⟨hLooks, hFound⟩ | ⟨hMakes, hNone⟩⟩
    · exact hTouched other hOld
    · refine .inr ⟨hValid, ?_⟩
      cases hStart : observed.manager.kernel.byName other with
      | none => exact .inr ⟨hNew other hStart hFound, rfl⟩
      | some link => exact .inl ⟨(hAllowed other hValid).1 hLooks, rfl⟩
    · exact .inr ⟨hValid, .inr ⟨(hAllowed other hValid).2 hMakes, hKept other hNone⟩⟩

theorem touched_cases (hWithin : Within program looked made) (faults : Nat → CallFaults)
    (h : other ∈ (program.run (observing texts) faults observed).2.touched) :
    other ∈ observed.touched ∨ ValidLinkName other ∧
      (looked other ∧ (observed.manager.kernel.byName other).isSome = true ∨
        made other ∧ observed.manager.kernel.byName other = none) :=
  (run_within texts hWithin faults).2.2 other h

end Touched

/-- When the two operations can meet in a link: one that both find, or one that both
create. An `up` of a vcan interface succeeds only on a link of its own name, and creates
one only if the name is none of a CAN interface. -/
def Collides : ApiCall → StringView → StringView → List UInt8 → Prop
  | .up .vcan bitrate, first, second, other =>
    other = field (.ofString first.text) ∧ (Looks (.up .vcan bitrate) second other ∨
      ¬HasCanPrefix other ∧ Makes (.up .vcan bitrate) second other)
  | call, first, second, other =>
    call.Looks first other ∧ call.Looks second other ∨ call.Makes first other ∧ call.Makes second other

/-- Both sides look at the beginning of the name, and the field does not cut that off. -/
theorem hasCanPrefix_field (text : List UInt8) :
    HasCanPrefix (field (.ofString text)) ↔
      (StringView.ofString text).startsWith (ascii "can") = true := by
  have hData : (StringView.ofString text).data = text ++ [0] := rfl
  have hText : (StringView.ofString text).text = text := rfl
  rw [HasCanPrefix, field, hData, CString.read_append_zero, StringView.startsWith, hText,
    List.isPrefixOf_iff_prefix, List.isPrefixOf_iff_prefix, List.prefix_take_iff,
    CString.prefix_read_iff (by decide)]
  exact and_iff_left (by decide)

section Success

variable {observed : Observed} {bitrate : UInt32} {faults : Nat → CallFaults}

/-- The commands of the fallback succeed only on a link by the whole name. -/
theorem exists_of_fallback
    (h : ((NetlinkClient.fallbackSystemCall name true bitrate).run (observing texts) faults
      observed).1 = .ok ()) :
    ∃ link, observed.manager.kernel.byName name.text = some link ∧
      (name.startsWith (ascii "can") = true → link.kind = .can) := by
  unfold NetlinkClient.fallbackSystemCall at h
  split_ifs at h with hCan
  · by_cases hZero : (IpCommand.run (faults 0).rules observed.manager.kernel
        (.bitrate name.text bitrate)).1 = 0
    · obtain ⟨link, hLink, hAccepted, _⟩ := IpCommand.exists_of_run hZero
      refine ⟨link, hLink, fun _ => ?_⟩
      by_contra hKind
      simp [IpCommand.change, LinkChange.refusedOn, hKind] at hAccepted
    · simp [Program.run, observing, hZero] at h
  · by_cases hZero : (IpCommand.run (faults 0).rules observed.manager.kernel
        (.state name.text true)).1 = 0
    · obtain ⟨link, hLink, _, _⟩ := IpCommand.exists_of_run hZero
      exact ⟨link, hLink, fun hStart => absurd hStart (by simpa using hCan)⟩
    · simp [NetlinkClient.fallbackState, Program.run, observing, hZero] at h

/-- The daemon brings up only a link of the name in the request, and one that can have
a bitrate if the name asks for that. -/
theorem exists_of_handled {text : List UInt8} {manager : NetlinkManager}
    {after : List UInt8} {request : RequestFaults} {response : NetlinkResponse} {left : NetlinkManager}
    (hHandled : manager.processRequest texts (NetlinkClient.stateRequest (.ofString text) true bitrate)
      after request = (response, left)) :
    LinkTable.ChangedAt (field (.ofString text)) manager.kernel left.kernel ∧
      (response.result = 0 → ∃ link, manager.kernel.byName (field (.ofString text)) = some link ∧
        (HasCanPrefix (field (.ofString text)) → link.kind = .can)) := by
  have hOutcome : SetOutcome manager (NetlinkClient.stateRequest (.ofString text) true bitrate)
      (field (.ofString text)) request _ _ :=
    setOutcome_stateRequest texts manager rfl true bitrate after request
  rw [hHandled] at hOutcome
  refine ⟨hOutcome.changedAt, fun hResult => ?_⟩
  obtain ⟨changed, hChanged, _⟩ := hOutcome.success hResult
  cases hLink : manager.kernel.byName (field (.ofString text)) with
  | none =>
      rw [hOutcome.changedAt.eq_of_none hLink, hLink] at hChanged
      cases hChanged
  | some link =>
      refine ⟨link, rfl, fun hPrefix => ?_⟩
      by_contra hKind
      have hBitrate : (NetlinkClient.stateRequest (.ofString text) true bitrate).setBitrate = true :=
        NetlinkClient.setBitrate_stateRequest.mpr ⟨(hasCanPrefix_field _).mp hPrefix, rfl⟩
      exact hOutcome.failed_of_not_can ⟨rfl, hBitrate⟩ hPrefix hLink hKind hResult

/-- So does the operation as a whole, whoever makes the change. -/
theorem exists_of_set {text : List UInt8} (hText : 0 ∉ text)
    (h : ((IPCManager.set (.ofString text) true bitrate).run (observing texts) faults observed).1 =
      .ok ()) :
    ∃ link, observed.manager.kernel.byName (field (.ofString text)) = some link ∧
      (HasCanPrefix (field (.ofString text)) → link.kind = .can) := by
  have hFallback {now : Observed} {rest : Nat → CallFaults}
      (hOk : ((NetlinkClient.fallbackSystemCall (.ofString text) true bitrate).run (observing texts)
        rest now).1 = .ok ()) :
      ∃ link, now.manager.kernel.byName (field (.ofString text)) = some link ∧
        (HasCanPrefix (field (.ofString text)) → link.kind = .can) := by
    obtain ⟨link, hLink, hKind⟩ := exists_of_fallback texts hOk
    have hSome : (now.manager.kernel.byName text).isSome = true := Option.isSome_iff_exists.mpr ⟨link, hLink⟩
    have hField : field (.ofString text) = text := field_of_valid hText (valid_of_byName hSome)
    exact ⟨link, by rw [hField]; exact hLink, fun hPrefix => hKind ((hasCanPrefix_field _).mp hPrefix)⟩
  cases hException : (faults 0).exception with
  | some what => simp [IPCManager.set, IPCManager.ensureInitialized, Program.run, observing, hException] at h
  | none =>
      obtain ⟨response, left, hHandled⟩ : ∃ response left, observed.manager.processRequest texts
          (NetlinkClient.stateRequest (.ofString text) true bitrate) (faults 1).after
          (faults 1).request = (response, left) := ⟨_, _, rfl⟩
      obtain ⟨hChanged, hSuccess⟩ := exists_of_handled texts hHandled
      simp only [IPCManager.set, IPCManager.ensureInitialized, NetlinkClient.setInterfaceState,
        Program.run, observing, hException, hHandled] at h
      cases hTransport : (faults 1).transport with
      | answered =>
          rw [hTransport] at h
          by_cases hResult : response.result = 0
          · exact hSuccess hResult
          · simp [hResult, Program.run] at h
      | lost error =>
          rw [hTransport] at h
          obtain ⟨link, hLink, hKind⟩ := hFallback h
          cases hBefore : observed.manager.kernel.byName (field (.ofString text)) with
          | none =>
              have hSame : left.kernel = observed.manager.kernel := hChanged.eq_of_none hBefore
              simp [Observed.touch, hSame, hBefore] at hLink
          | some before =>
              obtain ⟨changed, hFound, hSame⟩ := hChanged.kind hBefore
              obtain rfl : changed = link := Option.some.inj (hFound.symm.trans hLink)
              exact ⟨before, rfl, fun hPrefix => hSame ▸ hKind hPrefix⟩
      | unsent error =>
          rw [hTransport] at h
          exact hFallback h

/-- A program that fails if its first part does succeeds only after that has. -/
theorem ok_of_bind {Value : Type} {program : ClientProgram (Except Error Value)}
    {rest : Except Error Value → ClientProgram (Except Error Unit)}
    (h : ((program.bind rest).run (observing texts) faults observed).1 = .ok ())
    (hError : ∀ error, rest (.error error) = .done (.error error)) :
    ∃ value left, (program.run (observing texts) faults observed).1 = .ok value ∧
      (program.bind rest).run (observing texts) faults observed =
        (rest (.ok value)).run (observing texts) left (program.run (observing texts) faults observed).2 := by
  obtain ⟨used, hRest⟩ := Program.run_bind (Except Error Unit) (observing texts) program faults observed
  have hRun := hRest rest
  cases hFirst : (program.run (observing texts) faults observed).1 with
  | error error =>
      rw [hRun, hFirst, hError] at h
      cases h
  | ok value => exact ⟨value, _, rfl, by rw [hRun, hFirst]⟩

/-- A request without a fallback succeeds only on its own response. -/
theorem answer_of_query {Value : Type} {operation : RequestType} {failure : List UInt8}
    {value : NetlinkResponse → Value} {found : Value}
    (h : ((IPCManager.ensureInitialized
      (NetlinkClient.requestOnly (.ofQuery operation name.data) failure value)).run
        (observing texts) faults observed).1 = .ok found) :
    ∃ after failing response left,
      observed.manager.processRequest texts (.ofQuery operation name.data) after failing =
        (response, left) ∧
      response.result = 0 ∧ value response = found ∧
      ((IPCManager.ensureInitialized
        (NetlinkClient.requestOnly (.ofQuery operation name.data) failure value)).run
          (observing texts) faults observed).2 = observed.touch (queried operation name) left := by
  cases hException : (faults 0).exception with
  | some what => simp [IPCManager.ensureInitialized, Program.run, observing, hException] at h
  | none =>
      obtain ⟨response, left, hHandled⟩ : ∃ response left, observed.manager.processRequest texts
          (.ofQuery operation name.data) (faults 1).after (faults 1).request = (response, left) :=
        ⟨_, _, rfl⟩
      rw [← lookedUp_ofQuery operation name (faults 1).after]
      refine ⟨_, _, response, left, hHandled, ?_⟩
      cases hTransport : (faults 1).transport with
      | answered =>
          by_cases hResult : response.result = 0
          · simp [IPCManager.ensureInitialized, NetlinkClient.requestOnly, Program.run, observing,
              hException, hTransport, hHandled, hResult] at h ⊢
            exact h
          · simp [IPCManager.ensureInitialized, NetlinkClient.requestOnly, Program.run, observing,
              hException, hTransport, hHandled, hResult] at h
      | lost error | unsent error =>
          simp [IPCManager.ensureInitialized, NetlinkClient.requestOnly, Program.run, observing,
            hException, hTransport] at h

theorem linkExists_cases {found : Bool}
    (h : ((IPCManager.linkExists name).run (observing texts) faults observed).1 = .ok found) :
    ((IPCManager.linkExists name).run (observing texts) faults observed).2.manager.kernel =
        observed.manager.kernel ∧
      found = (observed.manager.kernel.byName (field name)).isSome ∧
      ∀ other ∈ ((IPCManager.linkExists name).run (observing texts) faults observed).2.touched,
        other ∈ observed.touched ∨ other = field name := by
  obtain ⟨after, failing, response, left, hHandled, hResult, hValue, hRun⟩ := answer_of_query texts h
  have hName : (NetlinkRequest.ofQuery .interfaceExists name.data).name after = field name :=
    NetlinkRequest.name_ofQuery .interfaceExists name.data after
  have hCheck : observed.manager.checkInterfaceExists (field name) failing.check = (response, left) := by
    rw [← hName]
    exact hHandled
  have hKernel : left.kernel = observed.manager.kernel := by
    rw [← checkInterfaceExists_kernel observed.manager (field name) failing.check, hCheck]
  rw [IPCManager.linkExists, NetlinkClient.interfaceExists, hRun]
  refine ⟨hKernel, ?_, fun other => mem_touch_of_kernel hKernel⟩
  cases hRefill : failing.check with
  | ok =>
      rw [hRefill] at hCheck
      obtain ⟨rfl, _⟩ := Prod.mk.inj hCheck
      exact hValue.symm
  | refused | cutShort count =>
      rw [hRefill] at hCheck
      obtain ⟨rfl, _⟩ := Prod.mk.inj hCheck
      exact absurd hResult (by decide)

/-- A successful creation leaves the links as they were, or one more. -/
theorem createVcan_cases
    (h : ((IPCManager.createVcan name).run (observing texts) faults observed).1 = .ok ()) :
    ∃ left, ((IPCManager.createVcan name).run (observing texts) faults observed).2 =
        observed.touch (ioctlName (field name)) left ∧
      (left.kernel = observed.manager.kernel ∨
        ∃ link, link.kind = .vcan ∧ left.kernel.links = observed.manager.kernel.links ++ [link]) := by
  obtain ⟨after, failing, response, left, hHandled, _, _, hRun⟩ := answer_of_query texts h
  have hName : (NetlinkRequest.ofQuery .createVcanInterface name.data).name after = field name :=
    NetlinkRequest.name_ofQuery .createVcanInterface name.data after
  have hKernel := processRequest_create texts observed.manager
    (.ofQuery .createVcanInterface name.data) (RequestType.ofByte_toByte .createVcanInterface) after failing
  rw [hHandled, hName] at hKernel
  refine ⟨left, hRun, ?_⟩
  rcases create_cases texts observed.manager.kernel (field name) failing.create with
    hSame | ⟨link, hKind, _, _, hLinks⟩
  · exact .inl (hKernel.trans hSame)
  · exact .inr ⟨link, hKind, by rw [hKernel, hLinks]⟩

/-- Where `up` of a vcan interface goes on from: the links of before, or one more, which
is a vcan link. -/
theorem ensureLink_cases {text : List UInt8}
    (h : ((Interface.ensureLink .vcan text).run (observing texts) faults observed).1 = .ok ()) :
    ∃ after, ((Interface.ensureLink .vcan text).run (observing texts) faults observed).2 = after ∧
      (after.manager.kernel = observed.manager.kernel ∧
          (∀ other ∈ after.touched, other ∈ observed.touched ∨ other = field (.ofString text) ∨
            other = ioctlName (field (.ofString text))) ∨
        observed.manager.kernel.byName (field (.ofString text)) = none ∧
          ∃ link, link.kind = .vcan ∧
            after.manager.kernel.links = observed.manager.kernel.links ++ [link] ∧
            ∀ other ∈ after.touched, other ∈ observed.touched ∨ other = field (.ofString text) ∨
              other = ioctlName (field (.ofString text)) ∨ other = link.name) := by
  refine ⟨_, rfl, ?_⟩
  unfold Interface.ensureLink at h ⊢
  dsimp only at h ⊢
  obtain ⟨found, left, hFound, hRun⟩ := ok_of_bind texts h fun _ => rfl
  rw [hRun] at h ⊢
  obtain ⟨hKernel, hIsSome, hTouched⟩ := linkExists_cases texts hFound
  generalize ((IPCManager.linkExists (.ofString text)).run (observing texts) faults observed).2 = now
    at h hKernel hTouched ⊢
  cases found with
  | true => exact .inl ⟨hKernel, fun other hMem => (hTouched other hMem).imp_right .inl⟩
  | false =>
      have hNone : observed.manager.kernel.byName (field (.ofString text)) = none := by
        simpa using hIsSome.symm
      obtain ⟨created, hAfter, hCreated⟩ := createVcan_cases texts h
      dsimp only
      rw [hAfter]
      rcases hCreated with hSame | ⟨link, hKind, hLinks⟩
      · refine .inl ⟨hSame.trans hKernel, fun other hMem => ?_⟩
        rcases mem_touch_of_kernel hSame hMem with hOld | hProbed
        · exact (hTouched other hOld).imp_right .inl
        · exact .inr (.inr hProbed)
      · refine .inr ⟨hNone, link, hKind, by rw [← hKernel]; exact hLinks, fun other hMem => ?_⟩
        rcases mem_touch_of_added hLinks hMem with hOld | hProbed | hNew
        · exact (hTouched other hOld).imp_right .inl
        · exact .inr (.inr (.inl hProbed))
        · exact .inr (.inr (.inr hNew))

/-- Where there is a link of the name, the name has no colon. -/
theorem ioctlName_of_byName {table : LinkTable} {text : List UInt8} {link : Link}
    (hLink : table.byName text = some link) : ioctlName text = text :=
  ioctlName_of_valid (valid_of_byName (Option.isSome_iff_exists.mpr ⟨link, hLink⟩))

/-- It succeeds only on a link of its own name, which it creates only if the name is none
of a CAN interface, and touches no other. -/
theorem up_vcan_cases {text : List UInt8} (hText : 0 ∉ text)
    (h : ((Interface.up .vcan text bitrate).run (observing texts) faults observed).1 = .ok ()) :
    (∀ other ∈ ((Interface.up .vcan text bitrate).run (observing texts) faults observed).2.touched,
      other ∈ observed.touched ∨ other = field (.ofString text)) ∧
      (observed.manager.kernel.byName (field (.ofString text)) = none →
        ¬HasCanPrefix (field (.ofString text))) := by
  unfold Interface.up at h ⊢
  obtain ⟨_, afterSet, hLinkUp, hUpRun⟩ := ok_of_bind texts h fun _ => rfl
  rw [hUpRun]
  unfold Interface.linkUp at hLinkUp ⊢
  obtain ⟨_, afterEnsure, hEnsure, hSetRun⟩ := ok_of_bind texts hLinkUp fun _ => rfl
  rw [hSetRun] at hLinkUp ⊢
  obtain ⟨middle, hMiddle, hCases⟩ := ensureLink_cases texts hEnsure
  rw [hMiddle] at hLinkUp ⊢
  obtain ⟨link, hLink, hKind⟩ := exists_of_set texts hText hLinkUp
  have hPlain : ioctlName (field (.ofString text)) = field (.ofString text) := ioctlName_of_byName hLink
  have hTouched : ∀ other ∈ ((Interface.connect text).run (observing texts) afterSet
      ((IPCManager.set (.ofString text) true bitrate).run (observing texts) afterEnsure middle).2).2.touched,
      other ∈ middle.touched ∨ other = field (.ofString text) := by
    intro other hMem
    have hConnect : Within (Interface.connect text) (· = field (.ofString text)) fun _ => False :=
      within_connect hPlain
    have hSet : Within (IPCManager.set (.ofString text) true bitrate) (· = field (.ofString text))
        fun _ => False := within_setText hText rfl
    rcases touched_cases texts hConnect _ hMem with hLeft | ⟨_, ⟨hField, _⟩ | ⟨hNever, _⟩⟩
    · rcases touched_cases texts hSet _ hLeft with hBefore | ⟨_, ⟨hField, _⟩ | ⟨hNever, _⟩⟩
      · exact .inl hBefore
      · exact .inr hField
      · exact absurd hNever id
    · exact .inr hField
    · exact absurd hNever id
  rcases hCases with ⟨hKernel, hMiddleTouched⟩ | ⟨hNone, created, hVcan, hLinks, hMiddleTouched⟩
  · refine ⟨fun other hMem => ?_, fun hNone => ?_⟩
    · rcases hTouched other hMem with hBefore | hField
      · rcases hMiddleTouched other hBefore with hOld | hField | hProbed
        · exact .inl hOld
        · exact .inr hField
        · exact .inr (hProbed.trans hPlain)
      · exact .inr hField
    · rw [hKernel, hNone] at hLink
      cases hLink
  · obtain ⟨hMem, hName⟩ := LinkTable.byName_eq_some_iff.mp hLink
    -- the link that the state is set on was not there before, so it is the new one
    have hNew : link = created := by
      rcases List.mem_append.mp (hLinks ▸ hMem) with hOld | hAdded
      · rw [LinkTable.byName_eq_some_iff.mpr ⟨hOld, hName⟩] at hNone
        cases hNone
      · exact List.mem_singleton.mp hAdded
    refine ⟨fun other hOther => ?_, fun _ hPrefix => ?_⟩
    · rcases hTouched other hOther with hBefore | hField
      · rcases hMiddleTouched other hBefore with hOld | hField | hProbed | hCreated
        · exact .inl hOld
        · exact .inr hField
        · exact .inr (hProbed.trans hPlain)
        · exact .inr (by rw [hCreated, ← hNew, hName])
      · exact .inr hField
    · rw [← hNew, hKind hPrefix] at hVcan
      cases hVcan

/-- Whether it succeeds or not, the socket is looked up only after the link of the name. -/
theorem up_touched {type : InterfaceType} {text : List UInt8} (hText : 0 ∉ text)
    (h : other ∈ ((Interface.up type text bitrate).run (observing texts) faults observed).2.touched) :
    other ∈ observed.touched ∨ ValidLinkName other ∧
      (Looks (.up type bitrate) (.ofString text) other ∧
          (observed.manager.kernel.byName other).isSome = true ∨
        Makes (.up type bitrate) (.ofString text) other ∧ observed.manager.kernel.byName other = none) := by
  have hField : Looks (.up type bitrate) (.ofString text) (field (.ofString text)) := by
    cases type with
    | can => rfl
    | vcan => exact .inl rfl
  have hWithin : Within (Interface.linkUp type text bitrate) (Looks (.up type bitrate) (.ofString text))
      (Makes (.up type bitrate) (.ofString text)) := by
    apply within_linkUp hText hField
    · rintro rfl
      exact .inr rfl
    · rintro rfl other hCreates
      exact hCreates
  obtain ⟨used, hRest⟩ := Program.run_bind (Except Error Unit) (observing texts)
    (Interface.linkUp type text bitrate) faults observed
  unfold Interface.up at h
  rw [hRest] at h
  cases hLinkUp : ((Interface.linkUp type text bitrate).run (observing texts) faults observed).1 with
  | error error =>
      rw [hLinkUp] at h
      exact touched_cases texts hWithin faults h
  | ok done =>
      rw [hLinkUp] at h
      obtain ⟨_, afterEnsure, _, hSet⟩ := ok_of_bind texts hLinkUp fun _ => rfl
      rw [Interface.linkUp, hSet] at hLinkUp
      obtain ⟨link, hLink, _⟩ := exists_of_set texts hText hLinkUp
      have hConnect : Within (Interface.connect text) (· = field (.ofString text)) fun _ => False :=
        within_connect (ioctlName_of_byName hLink)
      rcases touched_cases texts hConnect _ h with hBefore | ⟨hValid, ⟨rfl, hFound⟩ | ⟨hNever, _⟩⟩
      · exact touched_cases texts hWithin faults hBefore
      · refine .inr ⟨hValid, ?_⟩
        cases hStart : observed.manager.kernel.byName (field (.ofString text)) with
        | none => exact .inr ⟨(run_within texts hWithin faults).2.1 _ hStart hFound, rfl⟩
        | some link => exact .inl ⟨hField, rfl⟩
      · exact absurd hNever id

/-- Whatever a run touches concerns its operation. -/
theorem concerns_of_touched (hText : 0 ∉ name.text) {faults : Nat → CallFaults} {manager : NetlinkManager}
    (h : other ∈ (call.run texts name faults manager).2.touched) :
    ValidLinkName other ∧ (call.Looks name other ∧ (manager.kernel.byName other).isSome = true ∨
      call.Makes name other ∧ manager.kernel.byName other = none) := by
  have hWithin (hProgram : Within (call.program name) (call.Looks name) (call.Makes name)) :
      ValidLinkName other ∧ (call.Looks name other ∧ (manager.kernel.byName other).isSome = true ∨
        call.Makes name other ∧ manager.kernel.byName other = none) := by
    rcases touched_cases texts hProgram faults h with hOld | hNew
    · cases hOld
    · exact hNew
  cases call with
  | set up bitrate => exact hWithin (within_set (.inl rfl) fun _ => .inr rfl)
  | linkExists => exact hWithin (within_query rfl fun hCreate => by cases hCreate)
  | isUp => exact hWithin (within_query rfl fun hCreate => by cases hCreate)
  | createVcan => exact hWithin (within_query rfl fun _ _ => id)
  | down => exact hWithin (within_setText hText rfl)
  | up type bitrate =>
      rcases up_touched texts hText h with hOld | hNew
      · cases hOld
      · cases type <;> exact hNew

end Success

end ApiCall
end HyCAN
