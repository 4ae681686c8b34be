import HyCAN.Interface.SocketSteps

/-! Who owns the descriptors of `Socket` objects. The code takes a `sock_fd` of 0 for
none, except in the destructor; ownership is kept as long as that is never wrong. -/
namespace HyCAN.SocketObjects

open Ownership Transition

/-- Every close so far was of a descriptor that the object owned, and every descriptor
that is still open has one owner, whose `sock_fd` it is. -/
structure OwnershipKept (s : SocketObjects) : Prop where
  closes : ∀ close ∈ s.closes, close.rightful = true
  unique : ∀ o other fd, s.ledger.owns o fd = true → s.ledger.owns other fd = true → o = other
  covered : ∀ fd serial, s.ledger.openings fd = some (.issued serial) →
    ∃ o object, s.objects o = some object ∧ object.socket.sockFd = fd ∧
      s.ledger.held o = some (fd, serial)

/-- If `sock_fd` is 0, the object did not get it from `socket`. -/
def Reconnectable (s : SocketObjects) (o : Nat) : Prop :=
  ∀ object, s.objects o = some object → object.socket.sockFd = 0 → s.ledger.held o = none

/-- If `sock_fd` is 0, the object got it from `socket`. -/
def Destroyable (s : SocketObjects) (o : Nat) : Prop :=
  ∀ object, s.objects o = some object → object.socket.sockFd = 0 → s.ledger.held o ≠ none

/-- The step is right about a `sock_fd` of 0. -/
def TakesZeroRight (s : SocketObjects) : Action → Prop
  | .connect o _ => s.Reconnectable o
  | .moveAssign o src => o ≠ src → s.Reconnectable o
  | .destroy o => s.Destroyable o
  | _ => True

/-- The object that is reconnected, assigned to or destroyed. -/
def givenUpBy : Action → Option Nat
  | .connect o _ | .destroy o => some o
  | .moveAssign o src => if o = src then none else some o
  | _ => none

def Rightful (s : SocketObjects) : Prop :=
  ∀ close ∈ s.closes, close.rightful = true

/-- What holds in every reachable state: a descriptor that is held is the `sock_fd` of its
object, and a positive `sock_fd` is held. -/
structure Tracked (s : SocketObjects) : Prop where
  object : ∀ o fd serial, s.ledger.held o = some (fd, serial) →
    ∃ object, s.objects o = some object ∧ object.socket.sockFd = fd
  held : ∀ o object, s.objects o = some object → 0 < object.socket.sockFd →
    ∃ fd serial, object.socket.sockFd = Int.ofNat fd ∧ s.ledger.held o = some (fd, serial)
  sound : s.Rightful → s.ledger.Sound

/-- The part of `OwnershipKept` that the steps have to keep. -/
def Kept (s : SocketObjects) : Prop :=
  s.Rightful ∧ s.ledger.Covered

theorem Tracked.ownershipKept_iff {s : SocketObjects} (h : s.Tracked) :
    s.OwnershipKept ↔ s.Kept := by
  constructor
  · intro hKept
    refine ⟨hKept.closes, ?_⟩
    intro fd serial hOpen
    obtain ⟨o, _, _, _, hHeld⟩ := hKept.covered fd serial hOpen
    exact ⟨o, hHeld⟩
  · rintro ⟨hRightful, hCovered⟩
    refine ⟨hRightful, fun o other fd => (h.sound hRightful).owner_unique, ?_⟩
    intro fd serial hOpen
    obtain ⟨o, hHeld⟩ := hCovered fd serial hOpen
    obtain ⟨object, hObject, hFd⟩ := h.object o fd serial hHeld
    exact ⟨o, object, hObject, hFd, hHeld⟩

theorem Tracked.held_eq_none {s : SocketObjects} (h : s.Tracked) {o : Nat} {object : SocketObject}
    (hObject : s.objects o = some object) (hFd : object.socket.sockFd < 0) : s.ledger.held o = none := by
  by_contra hHeld
  obtain ⟨⟨fd, serial⟩, hEntry⟩ := Option.ne_none_iff_exists'.mp hHeld
  obtain ⟨same, hSame, hNumber⟩ := h.object o fd serial hEntry
  rw [hObject] at hSame
  cases hSame
  omega

theorem Tracked.setFd {s : SocketObjects} (h : s.Tracked) (o : Nat) (object : SocketObject) {fd : Int}
    (hFd : fd ≤ 0) : (s.setFd o object fd).Tracked := by
  refine ⟨?_, ?_, fun hRightful => (h.sound hRightful).forget o⟩
  · intro other number serial hHeld
    obtain ⟨hNe, hBefore⟩ := Ledger.held_of_forget hHeld
    rw [setFd_objects_of_ne _ _ _ _ hNe]
    exact h.object other number serial hBefore
  · intro other moved hMoved hPos
    rcases eq_or_ne other o with rfl | hNe
    · rw [setFd_objects_self, Option.some.injEq] at hMoved
      rw [← hMoved] at hPos
      exact absurd hPos (Int.not_lt.mpr hFd)
    · rw [setFd_objects_of_ne _ _ _ _ hNe] at hMoved
      rw [setFd_ledger, Ledger.held_forget_of_ne hNe]
      exact h.held other moved hMoved hPos

/-- An assignment to `sock_fd` loses whatever is held. -/
theorem Tracked.kept_setFd_iff {s : SocketObjects} (h : s.Tracked) (o : Nat) (object : SocketObject)
    (fd : Int) : (s.setFd o object fd).Kept ↔ s.Kept ∧ s.ledger.held o = none := by
  constructor
  · rintro ⟨hRightful, hCovered⟩
    obtain ⟨hBefore, hHeld⟩ := ((h.sound hRightful).covered_forget_iff o).mp hCovered
    exact ⟨⟨hRightful, hBefore⟩, hHeld⟩
  · rintro ⟨⟨hRightful, hCovered⟩, hHeld⟩
    exact ⟨hRightful, ((h.sound hRightful).covered_forget_iff o).mpr ⟨hCovered, hHeld⟩⟩

theorem Tracked.obtain {s : SocketObjects} (h : s.Tracked) (o : Nat) (object : SocketObject) {fd : Nat}
    (hFree : s.ledger.openings fd = none) : (s.obtain o object fd).Tracked := by
  refine ⟨?_, ?_, fun hRightful => ((h.sound hRightful).forget o).issue o hFree⟩
  · intro other number serial hHeld
    rcases eq_or_ne other o with rfl | hNe
    · rw [held_obtain, Option.some.injEq, Prod.mk.injEq] at hHeld
      exact ⟨_, setFd_objects_self s other object fd, congrArg Int.ofNat hHeld.1⟩
    · have hBefore : s.ledger.held other = some (number, serial) := by
        simpa [SocketObjects.obtain, Ledger.issue, Ledger.forget, hNe] using hHeld
      obtain ⟨same, hSame, hNumber⟩ := h.object other number serial hBefore
      exact ⟨same, (setFd_objects_of_ne s o object fd hNe).trans hSame, hNumber⟩
  · intro other moved hMoved hPos
    rcases eq_or_ne other o with rfl | hNe
    · have hSelf : some { object with socket := { object.socket with sockFd := (fd : Int) } } =
          some moved := (setFd_objects_self s other object fd).symm.trans hMoved
      cases hSelf
      exact ⟨fd, _, rfl, held_obtain s other object fd⟩
    · obtain ⟨number, serial, hNumber, hHeld⟩ :=
        h.held other moved ((setFd_objects_of_ne s o object fd hNe).symm.trans hMoved) hPos
      refine ⟨number, serial, hNumber, ?_⟩
      simpa [SocketObjects.obtain, Ledger.issue, Ledger.forget, hNe] using hHeld

theorem Tracked.kept_obtain_iff {s : SocketObjects} (h : s.Tracked) (o : Nat) (object : SocketObject)
    {fd : Nat} (hFree : s.ledger.openings fd = none) :
    (s.obtain o object fd).Kept ↔ s.Kept ∧ s.ledger.held o = none := by
  rw [← h.kept_setFd_iff o object fd]
  exact and_congr_right fun _ =>
    Ledger.covered_issue_iff (Ledger.held_forget_self o) hFree

theorem rightful_closeFd_iff {s : SocketObjects} {o fd : Nat} :
    (s.closeFd o fd).Rightful ↔ s.Rightful ∧ s.ledger.owns o fd = true := by
  simp [Rightful, closeFd, or_imp, forall_and]

/-- Closing a number that is not owned is the one wrong close. -/
theorem Tracked.giveUp {s : SocketObjects} (h : s.Tracked) (o : Nat) (object : SocketObject) (fd : Nat) :
    (s.giveUp o object fd).Tracked := by
  refine ⟨(h.setFd o object (Int.negSucc_lt_zero 0).le).object,
    (h.setFd o object (Int.negSucc_lt_zero 0).le).held, ?_⟩
  intro hRightful
  obtain ⟨hBefore, hOwns⟩ := rightful_closeFd_iff.mp hRightful
  exact (h.sound hBefore).close_forget hOwns

theorem Tracked.kept_giveUp_iff {s : SocketObjects} (h : s.Tracked) (o : Nat) (object : SocketObject)
    (fd : Nat) :
    (s.giveUp o object fd).Kept ↔ s.Kept ∧ ∃ serial, s.ledger.held o = some (fd, serial) := by
  constructor
  · rintro ⟨hRightful, hCovered⟩
    obtain ⟨hBefore, hOwns⟩ := rightful_closeFd_iff.mp hRightful
    obtain ⟨serial, hHeld, _⟩ := Ledger.owns_iff.mp hOwns
    exact ⟨⟨hBefore, ((h.sound hBefore).covered_close_forget_iff hHeld).mp hCovered⟩, serial, hHeld⟩
  · rintro ⟨⟨hRightful, hCovered⟩, serial, hHeld⟩
    have hSound := h.sound hRightful
    exact ⟨rightful_closeFd_iff.mpr ⟨hRightful, hSound.owns hHeld⟩,
      (hSound.covered_close_forget_iff hHeld).mpr hCovered⟩

/-- After the test of `sock_fd`, what was held is closed, unless it was 0. -/
theorem Tracked.disconnect {s : SocketObjects} (h : s.Tracked) {o : Nat} {object : SocketObject}
    (hObject : s.objects o = some object) : (s.disconnect o object).Tracked ∧
      ((s.disconnect o object).Kept ∧ (s.disconnect o object).ledger.held o = none ↔
        s.Kept ∧ s.Reconnectable o) := by
  unfold SocketObjects.disconnect
  split_ifs with hPos
  · obtain ⟨fd, serial, hFd, hHeld⟩ := h.held o object hObject hPos
    have hReconnectable : s.Reconnectable o := by
      intro same hSame hZero
      rw [hObject] at hSame
      cases hSame
      omega
    rw [hFd]
    refine ⟨h.giveUp o object fd, ?_⟩
    constructor
    · rintro ⟨hKept, _⟩
      exact ⟨((h.kept_giveUp_iff o object fd).mp hKept).1, hReconnectable⟩
    · rintro ⟨hKept, _⟩
      exact ⟨(h.kept_giveUp_iff o object fd).mpr ⟨hKept, serial, hHeld⟩, Ledger.held_forget_self o⟩
  · refine ⟨h, and_congr_right fun _ => ?_⟩
    constructor
    · exact fun hHeld _ _ _ => hHeld
    · intro hReconnectable
      rcases lt_or_eq_of_le (Int.not_lt.mp hPos) with hNeg | hZero
      · exact h.held_eq_none hObject hNeg
      · exact hReconnectable object hObject hZero

theorem Tracked.ensureConnected {s t : SocketObjects} (h : s.Tracked) {o : Nat} {object : SocketObject}
    {outcome : ConnectOutcome} {result : Except Error Unit} (hObject : s.objects o = some object)
    (hConnect : s.ensureConnected o object outcome = some (result, t)) :
    t.Tracked ∧ (t.Kept ↔ s.Kept ∧ s.Reconnectable o) := by
  obtain ⟨hTracked, hKept⟩ := h.disconnect hObject
  rw [← hKept]
  rcases ensureConnected_cases hConnect with rfl | ⟨fd, hFree, rfl | rfl⟩
  · exact ⟨hTracked.setFd o object (by decide), hTracked.kept_setFd_iff o object (-1)⟩
  · refine ⟨(hTracked.obtain o object hFree).giveUp o object fd, ?_⟩
    rw [(hTracked.obtain o object hFree).kept_giveUp_iff o object fd,
      hTracked.kept_obtain_iff o object hFree]
    exact and_iff_left ⟨_, held_obtain _ o object fd⟩
  · exact ⟨hTracked.obtain o object hFree, hTracked.kept_obtain_iff o object hFree⟩

theorem rightful_disconnect {s : SocketObjects} (h : s.Tracked) {o : Nat} {object : SocketObject}
    (hObject : s.objects o = some object) (hRightful : s.Rightful) :
    (s.disconnect o object).Rightful := by
  unfold SocketObjects.disconnect
  split_ifs with hPos
  · obtain ⟨fd, serial, hFd, hHeld⟩ := h.held o object hObject hPos
    rw [hFd]
    exact rightful_closeFd_iff.mpr ⟨hRightful, (h.sound hRightful).owns hHeld⟩
  · exact hRightful

/-- An object that is neither moved nor destroyed closes only what it owns. -/
theorem rightful_ensureConnected {s t : SocketObjects} (h : s.Tracked) {o : Nat}
    {object : SocketObject} (hObject : s.objects o = some object) {outcome : ConnectOutcome}
    {result : Except Error Unit} (hConnect : s.ensureConnected o object outcome = some (result, t))
    (hRightful : s.Rightful) : t.Rightful := by
  have hBefore := rightful_disconnect h hObject hRightful
  have hTracked := (h.disconnect hObject).1
  rcases ensureConnected_cases hConnect with rfl | ⟨fd, hFree, rfl | rfl⟩
  · exact hBefore
  · refine rightful_closeFd_iff.mpr ⟨hBefore, ?_⟩
    exact ((hTracked.obtain o object hFree).sound hBefore).owns (held_obtain _ o object fd)
  · exact hBefore

/-- The source of a move is left with -1, so nothing is owned twice. -/
theorem Tracked.moveConstruct {s : SocketObjects} (h : s.Tracked) {o src : Nat}
    {object other : SocketObject} (hNe : o ≠ src) (hOther : s.objects src = some other)
    (hSocket : object.socket = other.socket) (hHeld : s.ledger.held o = none) :
    (s.moveConstruct o src object).Tracked ∧ ((s.moveConstruct o src object).Kept ↔ s.Kept) := by
  have hAt : ∀ holder, (s.moveConstruct o src object).objects holder =
      if holder = src then some { object with socket := { object.socket with sockFd := -1 } }
      else if holder = o then some object else s.objects holder := by
    intro holder
    simp [SocketObjects.moveConstruct, Function.update_apply]
  refine ⟨⟨?_, ?_, fun hRightful => (h.sound hRightful).pass hHeld⟩, ?_⟩
  · intro holder fd serial hAfter
    rw [hAt]
    obtain ⟨hNotSrc, ⟨rfl, hFrom⟩ | ⟨hNotO, hSame⟩⟩ := Ledger.held_pass hAfter
    · obtain ⟨same, hSame, hFd⟩ := h.object src fd serial hFrom
      rw [hOther] at hSame
      cases hSame
      rw [if_neg hNotSrc, if_pos rfl]
      exact ⟨object, rfl, hSocket ▸ hFd⟩
    · rw [if_neg hNotSrc, if_neg hNotO]
      exact h.object holder fd serial hSame
  · intro holder moved hMoved hPos
    rw [hAt] at hMoved
    split_ifs at hMoved with hSrc hO
    · rw [← Option.some.inj hMoved] at hPos
      exact absurd hPos (show ¬(0 : Int) < -1 by decide)
    · cases hMoved
      rw [hSocket] at hPos
      obtain ⟨fd, serial, hFd, hFrom⟩ := h.held src other hOther hPos
      refine ⟨fd, serial, hSocket ▸ hFd, ?_⟩
      simp [SocketObjects.moveConstruct, Ledger.pass, hO, hNe, hFrom]
    · obtain ⟨fd, serial, hFd, hSame⟩ := h.held holder moved hMoved hPos
      refine ⟨fd, serial, hFd, ?_⟩
      simp [SocketObjects.moveConstruct, Ledger.pass, hSrc, hO, hSame]
  · exact and_congr_right fun _ => Ledger.covered_pass_iff hNe.symm hHeld

theorem Tracked.moveAssign {s : SocketObjects} (h : s.Tracked) {o src : Nat}
    {object other : SocketObject} (hNe : o ≠ src) (hObject : s.objects o = some object)
    (hOther : s.objects src = some other) :
    (s.moveAssign o src object other).Tracked ∧
      ((s.moveAssign o src object other).Kept ↔ s.Kept ∧ s.Reconnectable o) := by
  obtain ⟨hTracked, hKept⟩ := h.disconnect hObject
  have hSrc : ((s.disconnect o object).setFd o object (-1)).objects src = some other := by
    rw [setFd_objects_of_ne _ _ _ _ hNe.symm, disconnect_objects object hNe.symm, hOther]
  rw [moveAssign_eq, ← hKept, ← hTracked.kept_setFd_iff o object (-1)]
  exact (hTracked.setFd o object (by decide)).moveConstruct hNe hSrc rfl (Ledger.held_forget_self o)

/-- The destructor tests nothing. -/
theorem Tracked.kept_destroy_iff {s : SocketObjects} (h : s.Tracked) {o : Nat} {object : SocketObject}
    (hObject : s.objects o = some object) :
    (s.destroy o object).Kept ↔ s.Kept ∧ s.Destroyable o := by
  have hSame : (s.destroy o object).Kept ↔ (s.giveUp o object object.socket.sockFd).Kept := by
    rw [destroy_eq]
    exact Iff.rfl
  rw [hSame]
  cases hFd : object.socket.sockFd with
  | negSucc n =>
      have hHeld : s.ledger.held o = none := h.held_eq_none hObject (hFd ▸ Int.negSucc_lt_zero n)
      have hDestroyable : s.Destroyable o := by
        intro same hSame hZero
        rw [hObject] at hSame
        cases hSame
        simp [hFd] at hZero
      have hGiveUp : (s.giveUp o object (.negSucc n)).Kept ↔ s.Kept ∧ s.ledger.held o = none :=
        h.kept_setFd_iff o object (-1)
      rw [hGiveUp]
      exact and_congr_right fun _ => iff_of_true hHeld hDestroyable
  | ofNat fd =>
      have hGiveUp : (s.giveUp o object (.ofNat fd)).Kept ↔
          s.Kept ∧ ∃ serial, s.ledger.held o = some (fd, serial) := h.kept_giveUp_iff o object fd
      rw [hGiveUp]
      refine and_congr_right fun _ => ?_
      constructor
      · rintro ⟨serial, hHeld⟩ _ _ _
        simp [hHeld]
      · intro hDestroyable
        have hSome : s.ledger.held o ≠ none := by
          rcases Nat.eq_zero_or_pos fd with rfl | hPos
          · exact hDestroyable object hObject hFd
          · obtain ⟨number, serial, _, hHeld⟩ :=
              h.held o object hObject (hFd ▸ Int.natCast_pos.mpr hPos)
            simp [hHeld]
        obtain ⟨⟨number, serial⟩, hHeld⟩ := Option.ne_none_iff_exists'.mp hSome
        obtain ⟨same, hSame, hNumber⟩ := h.object o number serial hHeld
        rw [hObject] at hSame
        cases hSame
        have hEq : fd = number := Int.ofNat.inj (hFd.symm.trans hNumber)
        exact ⟨serial, hEq ▸ hHeld⟩

theorem Tracked.destroy {s : SocketObjects} (h : s.Tracked) {o : Nat} (object : SocketObject) :
    (s.destroy o object).Tracked := by
  have hGiveUp : (s.giveUp o object object.socket.sockFd).Tracked := by
    cases object.socket.sockFd with
    | ofNat fd => exact h.giveUp o object fd
    | negSucc n => exact h.setFd o object (by decide)
  have hHeld : (s.giveUp o object object.socket.sockFd).ledger.held o = none :=
    Ledger.held_forget_self o
  have hOthers : ∀ other, other ≠ o →
      (s.giveUp o object object.socket.sockFd).objects other = s.objects other := by
    intro other hNe
    unfold SocketObjects.giveUp closeFd
    split <;> simp [SocketObjects.setFd, hNe]
  rw [destroy_eq]
  refine ⟨?_, ?_, hGiveUp.sound⟩
  · intro other fd serial hOther
    have hNe : other ≠ o := by
      rintro rfl
      rw [hHeld] at hOther
      cases hOther
    obtain ⟨same, hSame, hFd⟩ := hGiveUp.object other fd serial hOther
    rw [hOthers other hNe] at hSame
    exact ⟨same, by simpa [hNe] using hSame, hFd⟩
  · intro other moved hMoved hPos
    have hNe : other ≠ o := by
      rintro rfl
      simp at hMoved
    refine hGiveUp.held other moved ?_ hPos
    rw [hOthers other hNe]
    simpa [hNe] using hMoved

/-- Where only others' descriptors change. -/
theorem Tracked.of_issued {s : SocketObjects} (h : s.Tracked) (after : Ledger Nat)
    (hHeld : after.held = s.ledger.held) (hSerial : after.nextSerial = s.ledger.nextSerial)
    (hIssued : ∀ fd serial, after.openings fd = some (.issued serial) ↔
      s.ledger.openings fd = some (.issued serial)) :
    ({ s with ledger := after } : SocketObjects).Tracked ∧
      (({ s with ledger := after } : SocketObjects).Kept ↔ s.Kept) := by
  refine ⟨⟨?_, ?_, ?_⟩, ?_⟩
  · intro o fd serial hEntry
    exact h.object o fd serial (hHeld ▸ hEntry)
  · intro o object hObject hPos
    obtain ⟨fd, serial, hFd, hEntry⟩ := h.held o object hObject hPos
    exact ⟨fd, serial, hFd, (congrFun hHeld o).trans hEntry⟩
  · exact fun hRightful => (h.sound hRightful).of_issued hHeld hSerial hIssued
  · exact and_congr_right fun _ => Ledger.covered_iff_of_issued hHeld hIssued

theorem Tracked.construct {s : SocketObjects} (h : s.Tracked) {o : Nat} (hNone : s.objects o = none)
    (holder : SocketHolder) (interfaceName : List UInt8) :
    ({ s with objects := Function.update s.objects o (some ⟨holder, ⟨0, interfaceName⟩⟩) } :
      SocketObjects).Tracked := by
  refine ⟨?_, ?_, h.sound⟩
  · intro other fd serial hHeld
    obtain ⟨object, hObject, hFd⟩ := h.object other fd serial hHeld
    have hNe : other ≠ o := by
      rintro rfl
      simp [hNone] at hObject
    exact ⟨object, by simpa [hNe] using hObject, hFd⟩
  · intro other object hObject hPos
    rcases eq_or_ne other o with rfl | hNe
    · simp only [Function.update_self, Option.some.injEq] at hObject
      rw [← hObject] at hPos
      exact absurd hPos (Int.lt_irrefl 0)
    · exact h.held other object (by simpa [hNe] using hObject) hPos

theorem Tracked.held_of_no_object {s : SocketObjects} (h : s.Tracked) {o : Nat}
    (hNone : s.objects o = none) : s.ledger.held o = none := by
  by_contra hHeld
  obtain ⟨⟨fd, serial⟩, hEntry⟩ := Option.ne_none_iff_exists'.mp hHeld
  obtain ⟨object, hObject, _⟩ := h.object o fd serial hEntry
  simp [hNone] at hObject

/-- Each step keeps track, and keeps ownership exactly if it takes a 0 right. -/
theorem Tracked.step {s t : SocketObjects} {action : Action} (h : s.Tracked)
    (hStep : Step s action t) : t.Tracked ∧ (t.Kept ↔ s.Kept ∧ s.TakesZeroRight action) := by
  cases hStep with
  | constructed holder interfaceName hNone =>
      exact ⟨h.construct hNone holder interfaceName, (and_iff_left trivial).symm⟩
  | connected hObject hConnect => exact h.ensureConnected hObject hConnect
  | moveConstructed hNone hSrc _ =>
      have hNe := ne_of_objects hNone hSrc
      obtain ⟨hTracked, hKept⟩ := h.moveConstruct hNe hSrc rfl (h.held_of_no_object hNone)
      exact ⟨hTracked, hKept.trans (and_iff_left trivial).symm⟩
  | selfAssigned => exact ⟨h, (and_iff_left fun hNe => absurd rfl hNe).symm⟩
  | moveAssigned hNe hObject hSrc _ =>
      obtain ⟨hTracked, hKept⟩ := h.moveAssign hNe hObject hSrc
      refine ⟨hTracked, hKept.trans (and_congr_right fun _ => ?_)⟩
      exact ⟨fun hRight _ => hRight, fun hRight => hRight hNe⟩
  | destroyed hObject => exact ⟨h.destroy _, h.kept_destroy_iff hObject⟩
  | opened hFree =>
      obtain ⟨hTracked, hKept⟩ := h.of_issued (s.ledger.openForeign _) rfl rfl
        fun _ _ => Ledger.issued_openForeign hFree
      exact ⟨hTracked, hKept.trans (and_iff_left trivial).symm⟩
  | closed hForeign =>
      obtain ⟨hTracked, hKept⟩ := h.of_issued (s.ledger.close _) rfl rfl
        fun _ _ => Ledger.issued_closeForeign hForeign
      exact ⟨hTracked, hKept.trans (and_iff_left trivial).symm⟩

theorem tracked_start (application : Nat → Bool) : (start application).Tracked := by
  have hForeign : ∀ fd serial, (start application).ledger.openings fd ≠ some (.issued serial) := by
    intro fd serial
    cases hUsed : application fd <;> simp [start, hUsed]
  refine ⟨by simp [start], by simp [start], fun _ => ⟨by simp [start], by simp [start], ?_⟩⟩
  intro fd serial hOpen
  exact absurd hOpen (hForeign fd serial)

theorem kept_start (application : Nat → Bool) : (start application).Kept := by
  refine ⟨by simp [Rightful, start], ?_⟩
  intro fd serial hOpen
  cases hUsed : application fd <;> simp [start, hUsed] at hOpen

theorem tracked_of_reachable {application : Nat → Bool} {s : SocketObjects}
    (h : machine.Reachable (start application) s) : s.Tracked :=
  h.invariant (tracked_start application) fun _ _ _ hTracked hStep => (hTracked.step (step_cases hStep)).1

/-- Whatever the object held, nothing holds it any more. -/
theorem not_held_of_givenUp {s t : SocketObjects} {action : Action} {o : Nat}
    (hSound : s.ledger.Sound) (hStep : Step s action t) (hGiven : givenUpBy action = some o)
    {fd serial : Nat} (hHeld : s.ledger.held o = some (fd, serial)) (other : Nat) :
    t.ledger.held other ≠ some (fd, serial) := by
  intro hAfter
  have hNotOther : other ≠ o → s.ledger.held other ≠ some (fd, serial) := fun hNe hSame =>
    hNe (hSound.alone other o fd serial hSame hHeld)
  cases hStep with
  | connected hObject hConnect =>
      cases hGiven
      rcases ensureConnected_held hConnect hAfter with ⟨_, hNew⟩ | ⟨hNe, hSame⟩
      · have hOld := hSound.fresh fd serial (hSound.live o fd serial hHeld)
        omega
      · exact hNotOther hNe hSame
  | selfAssigned => simp [givenUpBy] at hGiven
  | @moveAssigned dst src _ _ hNe =>
      simp only [givenUpBy, if_neg hNe, Option.some.injEq] at hGiven
      subst hGiven
      rcases moveAssign_held hNe hAfter with ⟨_, hFrom⟩ | ⟨hNotDst, hSame⟩
      · exact hNe (hSound.alone dst src fd serial hHeld hFrom)
      · exact hNotOther hNotDst hSame
  | destroyed hObject =>
      cases hGiven
      obtain ⟨hNe, hSame⟩ := destroy_held hAfter
      exact hNotOther hNe hSame
  | constructed | moveConstructed | opened | closed => cases hGiven

/-- A program keeps the ownership of its descriptors exactly if it is never wrong about a
`sock_fd` of 0: such an object is destroyed only if it got the 0 from `socket`, and
reconnected or assigned to only if it did not. Then an owner has closed its descriptor
by the time it is reconnected, assigned to or destroyed. -/
theorem ownership_kept_iff (application : Nat → Bool) (actions : List Action) :
    ((∀ t, machine.Passes (start application) actions t → t.OwnershipKept) ↔
      ∀ s action t, machine.Takes (start application) actions s action t → s.TakesZeroRight action) ∧
    ((∀ s action t, machine.Takes (start application) actions s action t → s.TakesZeroRight action) →
      ∀ s action t, machine.Takes (start application) actions s action t → ∀ o fd serial,
        givenUpBy action = some o → s.ledger.held o = some (fd, serial) →
          t.ledger.openings fd ≠ some (.issued serial)) := by
  have hExact : (∀ t, machine.Passes (start application) actions t → t.Kept) ↔
      ∀ s action t, machine.Takes (start application) actions s action t → s.TakesZeroRight action := by
    refine Machine.passes_iff_takes (kept_start application) ?_
    intro s action t hTakes hKept
    rw [((tracked_of_reachable hTakes.source.reachable).step (step_cases hTakes.step)).2]
    exact and_iff_right hKept
  refine ⟨?_, ?_⟩
  · rw [← hExact]
    refine forall_congr' fun t => imp_congr_right fun hPasses => ?_
    exact (tracked_of_reachable hPasses.reachable).ownershipKept_iff
  · intro hRight s action t hTakes o fd serial hGiven hHeld hOpen
    have hSource := hExact.mpr hRight s hTakes.source
    have hSound := (tracked_of_reachable hTakes.source.reachable).sound hSource.1
    obtain ⟨other, hOther⟩ := (hExact.mpr hRight t hTakes.target).2 fd serial hOpen
    exact not_held_of_givenUp hSound (step_cases hTakes.step) hGiven hHeld other hOther

/-- A socket that is never connected closes the standard input of the application. -/
theorem unconnected_socket_closes_zero :
    ¬∀ (application : Nat → Bool) (actions : List Action) (t : SocketObjects),
      machine.Passes (start application) actions t → t.OwnershipKept := by
  intro hClaim
  have hKept := hClaim (fun fd => fd < 3) [.construct 0 .program (ascii "can0"), .destroy 0] _
    (.of_run rfl)
  simpa using hKept.closes ⟨0, 0, false⟩ (by simp [start, destroy, closeFd, Ledger.owns])

end HyCAN.SocketObjects
