import HyCAN.Daemon.NetlinkManagerSteps
import HyCAN.Transition.History

/-! What the daemon is for: a service on the links of the host, by their names. Each request
is answered at once, with one of the responses that are allowed where the links are so. -/
namespace HyCAN

open Transition

/-- A link as clients know it. -/
structure LinkStatus where
  kind : LinkKind
  up : Bool
  bitrate : UInt32
  deriving DecidableEq

/-- A request, with the memory behind it. -/
abbrev Asked := NetlinkRequest × List UInt8

namespace Asked

def operation (asked : Asked) : Option RequestType := RequestType.ofByte asked.1.operation

def name (asked : Asked) : List UInt8 := asked.1.name asked.2

/-- Whether the request is one to set the state of the link. -/
def Sets (asked : Asked) (name : List UInt8) : Prop :=
  asked.operation = some .setInterfaceState ∧ asked.name = name

instance (asked : Asked) (name : List UInt8) : Decidable (asked.Sets name) := inferInstanceAs (Decidable (_ ∧ _))

/-- Whether the request is one to create a link that can get this name. -/
def Creates (asked : Asked) (name : List UInt8) : Prop :=
  asked.operation = some .createVcanInterface ∧
    ∃ number, assignedName (asked.name.take (ifNameSize - 1)) number = some name

/-- Whether a bitrate is asked for that is not left out because of the name. -/
def Rates (asked : Asked) : Prop :=
  asked.1.up = true ∧ asked.1.setBitrate = true ∧ NetlinkManager.HasCanPrefix asked.name

instance (asked : Asked) : Decidable asked.Rates := inferInstanceAs (Decidable (_ ∧ _))

/-- What a request that succeeds makes of a link. -/
def settled (asked : Asked) (status : LinkStatus) : LinkStatus :=
  { status with up := asked.1.up, bitrate := if asked.Rates then asked.1.bitrate else status.bitrate }

end Asked

namespace LinkService

/-- The links of a host, by their names. -/
abbrev Links := List UInt8 → Option LinkStatus

/-- The responses, and what becomes of the links. Every request may fail. -/
inductive Allows (links : Links) (asked : Asked) : NetlinkResponse → Links → Prop where
  | exist (hOperation : asked.operation = some .interfaceExists) :
      Allows links asked (.ofQuery 0 (links asked.name).isSome false) links
  | isUp (hOperation : asked.operation = some .interfaceIsUp) :
      Allows links asked
        (.ofQuery 0 (links asked.name).isSome ((links asked.name).elim false LinkStatus.up)) links
  | set {response : NetlinkResponse} {status : LinkStatus}
      (hOperation : asked.operation = some .setInterfaceState) (hResult : response.result = 0)
      (hLink : links asked.name = some status) (hKind : asked.Rates → status.kind = .can) :
      Allows links asked response (Function.update links asked.name (some (asked.settled status)))
  | create {response : NetlinkResponse} {assigned : List UInt8} {number : Nat}
      (hOperation : asked.operation = some .createVcanInterface) (hResult : response.result = 0)
      (hName : assignedName (asked.name.take (ifNameSize - 1)) number = some assigned)
      (hFree : links assigned = none) :
      Allows links asked response (Function.update links assigned (some ⟨.vcan, false, 0⟩))
  | found {response : NetlinkResponse} (hOperation : asked.operation = some .createVcanInterface)
      (hResult : response.result = 0) (hLink : (links (asked.name.take (ifNameSize - 1))).isSome) :
      Allows links asked response links
  /-- `if_nametoindex` finds the link of the name up to a colon. -/
  | probed {response : NetlinkResponse} (hOperation : asked.operation = some .createVcanInterface)
      (hResult : response.result = 0) (hLink : (links (ioctlName asked.name)).isSome) :
      Allows links asked response links
  | failed {response : NetlinkResponse} (hResult : response.result ≠ 0) : Allows links asked response links
  /-- It was to set a bitrate, and the link was taken down for that. -/
  | leftDown {response : NetlinkResponse} {status : LinkStatus} {bitrate : UInt32}
      (hOperation : asked.operation = some .setInterfaceState) (hResult : response.result ≠ 0)
      (hUp : asked.1.up = true) (hRate : asked.1.setBitrate = true)
      (hLink : links asked.name = some status)
      (hBitrate : bitrate = status.bitrate ∨ bitrate = asked.1.bitrate ∧ asked.Rates ∧ status.kind = .can) :
      Allows links asked response (Function.update links asked.name (some ⟨status.kind, false, bitrate⟩))

variable {links after : Links} {asked : Asked} {response : NetlinkResponse} {name : List UInt8}
  {status : LinkStatus}

/-- A link that no request to set it is made for stays as it is. -/
theorem Allows.kept (h : Allows links asked response after) (hLink : links name = some status)
    (hOther : ¬asked.Sets name) : after name = some status := by
  cases h with
  | exist | isUp | found | probed | failed => exact hLink
  | set hOperation | leftDown hOperation =>
      have hNe : name ≠ asked.name := fun hSame => hOther ⟨hOperation, hSame.symm⟩
      rw [Function.update_of_ne hNe]
      exact hLink
  | @create _ assigned _ _ _ _ hFree =>
      have hNe : name ≠ assigned := fun hSame => by simp [← hSame, hLink] at hFree
      rw [Function.update_of_ne hNe]
      exact hLink

/-- After a request that succeeds the link is as it was asked for. -/
theorem Allows.set_done (h : Allows links asked response after) (hSets : asked.Sets name)
    (hDone : response.result = 0) :
    ∃ status, links name = some status ∧ (asked.Rates → status.kind = .can) ∧
      after = Function.update links name (some (asked.settled status)) := by
  obtain ⟨hOperation, rfl⟩ := hSets
  cases h with
  | exist hOther | isUp hOther | create hOther | found hOther | probed hOther => simp [hOperation] at hOther
  | set _ _ hLink hKind => exact ⟨_, hLink, hKind, rfl⟩
  | failed hFailed | leftDown _ hFailed => exact absurd hDone hFailed

/-- A query that succeeds tells what there is. -/
theorem Allows.told (h : Allows links asked response after) (hOperation : asked.operation = some .interfaceIsUp)
    (hDone : response.result = 0) :
    after = links ∧ response =
      .ofQuery 0 (links asked.name).isSome ((links asked.name).elim false LinkStatus.up) := by
  cases h with
  | isUp => exact ⟨rfl, rfl⟩
  | exist hOther | set hOther | create hOther | found hOther | probed hOther | leftDown hOther => simp [hOperation] at hOther
  | failed hFailed => exact absurd hDone hFailed

/-- Whatever is asked for, a link stays a link of its kind, and only a CAN link gets another
bitrate, and that the one that is asked for. -/
theorem Allows.stays (h : Allows links asked response after) (hLink : links name = some status) :
    ∃ later, after name = some later ∧ later.kind = status.kind ∧
      (later.bitrate = status.bitrate ∨
        status.kind = .can ∧ asked.Sets name ∧ asked.Rates ∧ later.bitrate = asked.1.bitrate) := by
  by_cases hSets : asked.Sets name
  · have hSetsName := hSets
    obtain ⟨hOperation, rfl⟩ := hSets
    cases h with
    | exist | isUp | found | probed | failed => exact ⟨status, hLink, rfl, .inl rfl⟩
    | create hOther => simp [hOperation] at hOther
    | set _ _ hFound hKind =>
        rw [hLink, Option.some.injEq] at hFound
        subst hFound
        refine ⟨_, Function.update_self .., rfl, ?_⟩
        by_cases hRates : asked.Rates
        · exact .inr ⟨hKind hRates, hSetsName, hRates, if_pos hRates⟩
        · exact .inl (if_neg hRates)
    | leftDown _ _ _ _ hFound hBitrate =>
        rw [hLink, Option.some.injEq] at hFound
        subst hFound
        refine ⟨_, Function.update_self .., rfl, ?_⟩
        rcases hBitrate with hSame | ⟨hAsked, hRates, hKind⟩
        · exact .inl hSame
        · exact .inr ⟨hKind, hSetsName, hRates, hAsked⟩
  · exact ⟨status, h.kept hLink hSets, rfl, .inl rfl⟩

/-- A link that is new is a vcan link that is down, and is asked for. -/
theorem Allows.new (h : Allows links asked response after) (hNone : links name = none)
    (hNew : after name = some status) :
    status = ⟨.vcan, false, 0⟩ ∧ asked.Creates name ∧ response.result = 0 := by
  cases h with
  | exist | isUp | found | probed | failed => simp [hNone] at hNew
  | set _ _ hLink | leftDown _ _ _ _ hLink =>
      have hNe : name ≠ asked.name := fun hSame => by simp [← hSame, hNone] at hLink
      simp [Function.update_of_ne hNe, hNone] at hNew
  | @create _ assigned number hOperation hResult hName =>
      by_cases hSame : name = assigned
      · subst hSame
        rw [Function.update_self, Option.some.injEq] at hNew
        exact ⟨hNew.symm, ⟨hOperation, number, hName⟩, hResult⟩
      · simp [Function.update_of_ne hSame, hNone] at hNew

/-- A link that gets to be up is asked for by a request that succeeds. -/
theorem Allows.came_up (h : Allows links asked response after)
    (hDown : (links name).elim false LinkStatus.up = false)
    (hUp : (after name).elim false LinkStatus.up = true) :
    asked.Sets name ∧ asked.1.up = true ∧ response.result = 0 := by
  by_cases hSets : asked.Sets name
  · refine ⟨hSets, ?_⟩
    obtain ⟨hOperation, rfl⟩ := hSets
    cases h with
    | exist hOther | isUp hOther | create hOther | found hOther | probed hOther => simp [hOperation] at hOther
    | set _ hResult => simpa [Function.update_self, Asked.settled, hResult] using hUp
    | failed => simp [hDown] at hUp
    | leftDown => simp [Function.update_self] at hUp
  · cases hLink : links name with
    | none =>
        cases hNew : after name with
        | none => simp [hNew] at hUp
        | some status =>
            rw [hNew, (h.new hLink hNew).1] at hUp
            cases hUp
    | some status =>
        rw [h.kept hLink hSets, ← hLink] at hUp
        simp [hDown] at hUp

/-- A link that goes down is taken down, or taken down for its bitrate. -/
theorem Allows.went_down (h : Allows links asked response after) (hLink : links name = some status)
    (hUp : status.up = true) {later : LinkStatus} (hAfter : after name = some later)
    (hDown : later.up = false) : asked.Sets name ∧ (asked.1.up = false ∨ asked.1.setBitrate = true) := by
  by_cases hSets : asked.Sets name
  · refine ⟨hSets, ?_⟩
    obtain ⟨hOperation, rfl⟩ := hSets
    cases h with
    | exist hOther | isUp hOther | create hOther | found hOther | probed hOther => simp [hOperation] at hOther
    | set =>
        rw [Function.update_self, Option.some.injEq] at hAfter
        subst hAfter
        exact .inl hDown
    | failed =>
        rw [hLink, Option.some.injEq] at hAfter
        simp [← hAfter, hUp] at hDown
    | leftDown _ _ _ hRate => exact .inr hRate
  · rw [h.kept hLink hSets, Option.some.injEq] at hAfter
    simp [← hAfter, hUp] at hDown

section Histories

variable {done : List (Asked × NetlinkResponse)}

theorem stays (h : History Allows links done after) (hLink : links name = some status) :
    ∃ later, after name = some later ∧ later.kind = status.kind ∧
      (later.bitrate = status.bitrate ∨ status.kind = .can ∧ ∃ entry ∈ done,
        entry.1.Sets name ∧ entry.1.Rates ∧ later.bitrate = entry.1.1.bitrate) := by
  apply h.kept (P := fun links => ∃ now, links name = some now ∧ now.kind = status.kind ∧
    (now.bitrate = status.bitrate ∨ status.kind = .can ∧ ∃ entry ∈ done,
      entry.1.Sets name ∧ entry.1.Rates ∧ now.bitrate = entry.1.1.bitrate))
  · exact ⟨status, hLink, rfl, .inl rfl⟩
  · rintro asked response before next hMem hStep ⟨now, hNow, hKind, hRate⟩
    obtain ⟨later, hLater, hSame, hLast⟩ := hStep.stays hNow
    refine ⟨later, hLater, hSame.trans hKind, ?_⟩
    rcases hLast with hLast | ⟨hCan, hSets, hRates, hAsked⟩
    · rw [hLast]
      exact hRate
    · exact .inr ⟨hKind ▸ hCan, _, hMem, hSets, hRates, hAsked⟩

/-- A link that no request is made to set is left alone. -/
theorem kept (h : History Allows links done after) (hLink : links name = some status)
    (hOther : ∀ entry ∈ done, ¬entry.1.Sets name) : after name = some status :=
  h.kept (P := fun links => links name = some status) hLink
    fun _ _ _ _ hMem hStep hBefore => hStep.kept hBefore (hOther _ hMem)

/-- All that is new is vcan links, which have no bitrate. -/
theorem new (h : History Allows links done after) (hNone : links name = none)
    (hNew : after name = some status) :
    status.kind = .vcan ∧ status.bitrate = 0 ∧ ∃ entry ∈ done, entry.1.Creates name ∧ entry.2.result = 0 := by
  have hEither : after name = none ∨ ∃ later, after name = some later ∧ later.kind = .vcan ∧
      later.bitrate = 0 ∧ ∃ entry ∈ done, entry.1.Creates name ∧ entry.2.result = 0 := by
    apply h.kept (P := fun links => links name = none ∨ ∃ now, links name = some now ∧ now.kind = .vcan ∧
      now.bitrate = 0 ∧ ∃ entry ∈ done, entry.1.Creates name ∧ entry.2.result = 0)
    · exact .inl hNone
    · rintro asked response before next hMem hStep (hBefore | ⟨now, hNow, hKind, hRate, hCause⟩)
      · cases hNext : next name with
        | none => exact .inl rfl
        | some later =>
            obtain ⟨hDown, hCreates, hResult⟩ := hStep.new hBefore hNext
            exact .inr ⟨later, rfl, by rw [hDown], by rw [hDown], _, hMem, hCreates, hResult⟩
      · obtain ⟨later, hLater, hSame, hLast⟩ := hStep.stays hNow
        refine .inr ⟨later, hLater, hSame.trans hKind, ?_, hCause⟩
        rw [← hRate]
        exact hLast.resolve_right fun hCan => by simp [hKind] at hCan
  rcases hEither with hSame | ⟨later, hLater, hVcan⟩
  · simp [hNew] at hSame
  · rw [hNew, Option.some.injEq] at hLater
    exact hLater ▸ hVcan

theorem came_up (h : History Allows links done after)
    (hDown : (links name).elim false LinkStatus.up = false)
    (hUp : (after name).elim false LinkStatus.up = true) :
    ∃ entry ∈ done, entry.1.Sets name ∧ entry.1.1.up = true ∧ entry.2.result = 0 := by
  by_contra hNone
  have hStill := h.kept (P := fun links => (links name).elim false LinkStatus.up = false) hDown ?_
  · simp [hUp] at hStill
  · intro asked response before next hMem hStep hBefore
    by_contra hNext
    exact hNone ⟨_, hMem, hStep.came_up hBefore (by simpa using hNext)⟩

theorem went_down (h : History Allows links done after) (hLink : links name = some status)
    (hUp : status.up = true) {later : LinkStatus} (hAfter : after name = some later)
    (hDown : later.up = false) :
    ∃ entry ∈ done, entry.1.Sets name ∧ (entry.1.1.up = false ∨ entry.1.1.setBitrate = true) := by
  by_contra hNone
  have hStill : ∃ now, after name = some now ∧ now.up = true := by
    apply h.kept (P := fun links => ∃ now, links name = some now ∧ now.up = true)
    · exact ⟨status, hLink, hUp⟩
    · rintro asked response before next hMem hStep ⟨now, hNow, hNowUp⟩
      obtain ⟨left, hLeft, _⟩ := hStep.stays hNow
      cases hLeftUp : left.up with
      | true => exact ⟨left, hLeft, hLeftUp⟩
      | false => exact absurd ⟨_, hMem, hStep.went_down hNow hNowUp hLeft hLeftUp⟩ hNone
  obtain ⟨now, hNow, hNowUp⟩ := hStill
  rw [hAfter, Option.some.injEq] at hNow
  simp [← hNow, hDown] at hNowUp

/-- Whatever is different about a link is so because of requests for it. -/
structure Accounted (links : Links) (done : List (Asked × NetlinkResponse)) (after : Links) : Prop where
  stays : ∀ name status, links name = some status → ∃ later, after name = some later ∧
    later.kind = status.kind ∧
      (later.bitrate = status.bitrate ∨ status.kind = .can ∧ ∃ entry ∈ done,
        entry.1.Sets name ∧ entry.1.Rates ∧ later.bitrate = entry.1.1.bitrate)
  new : ∀ name status, links name = none → after name = some status →
    status.kind = .vcan ∧ status.bitrate = 0 ∧ ∃ entry ∈ done, entry.1.Creates name ∧ entry.2.result = 0
  cameUp : ∀ name, (links name).elim false LinkStatus.up = false →
    (after name).elim false LinkStatus.up = true →
    ∃ entry ∈ done, entry.1.Sets name ∧ entry.1.1.up = true ∧ entry.2.result = 0
  wentDown : ∀ name status later, links name = some status → status.up = true →
    after name = some later → later.up = false →
    ∃ entry ∈ done, entry.1.Sets name ∧ (entry.1.1.up = false ∨ entry.1.1.setBitrate = true)

theorem accounted (h : History Allows links done after) : Accounted links done after where
  stays _ _ hLink := stays h hLink
  new _ _ hNone hNew := new h hNone hNew
  cameUp _ hDown hUp := came_up h hDown hUp
  wentDown _ _ _ hLink hUp hAfter hDown := went_down h hLink hUp hAfter hDown

/-- What a query tells is what the last request made of the link that was to set it. -/
theorem reads_last_set {front middle back : List (Asked × NetlinkResponse)} {set query : Asked}
    {answer : NetlinkResponse}
    (h : History Allows links (front ++ (set, response) :: middle ++ (query, answer) :: back) after)
    (hSets : set.Sets name) (hDone : response.result = 0)
    (hOther : ∀ entry ∈ middle, ¬entry.1.Sets name)
    (hQuery : query.operation = some .interfaceIsUp ∧ query.name = name) (hAnswer : answer.result = 0) :
    answer = .ofQuery 0 true set.1.up := by
  obtain ⟨beforeQuery, hFront, hBack⟩ := h.split
  obtain ⟨beforeSet, _, hMiddle⟩ := hFront.split
  obtain ⟨afterSet, hSet, hMiddle⟩ := History.cons_iff.mp hMiddle
  obtain ⟨afterQuery, hTold, _⟩ := History.cons_iff.mp hBack
  obtain ⟨status, _, _, hAfter⟩ := hSet.set_done hSets hDone
  have hLink : beforeQuery name = some (set.settled status) := by
    apply kept hMiddle _ hOther
    rw [hAfter, Function.update_self]
  obtain ⟨_, hSaid⟩ := hTold.told hQuery.1 hAnswer
  rw [hSaid, hQuery.2, hLink]
  rfl

end Histories

end LinkService
end HyCAN
