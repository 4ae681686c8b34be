import HyCAN.Interface.Socket

/-! What each step of a program with `Socket` objects can do: the ways through
`ensure_connected`, and which object holds what after each step. -/
namespace HyCAN.SocketObjects

open Ownership Transition

section SetFd

variable (s : SocketObjects) (o : Nat) (object : SocketObject) (fd : Int)

@[simp] theorem setFd_closes : (s.setFd o object fd).closes = s.closes := rfl
@[simp] theorem setFd_ledger : (s.setFd o object fd).ledger = s.ledger.forget o := rfl

theorem setFd_objects_of_ne {other : Nat} (hNe : other ≠ o) :
    (s.setFd o object fd).objects other = s.objects other := by
  simp [setFd, hNe]

theorem setFd_objects_self : (s.setFd o object fd).objects o =
    some { object with socket := { object.socket with sockFd := fd } } := by
  simp [setFd]

end SetFd

theorem held_obtain (s : SocketObjects) (o : Nat) (object : SocketObject) (fd : Nat) :
    (s.obtain o object fd).ledger.held o = some (fd, s.ledger.nextSerial) := by
  simp [obtain, Ledger.issue, Ledger.forget]

/-- The paths through `ensure_connected`. -/
theorem ensureConnected_cases {s t : SocketObjects} {o : Nat} {object : SocketObject}
    {outcome : ConnectOutcome} {result : Except Error Unit}
    (h : s.ensureConnected o object outcome = some (result, t)) :
    let u := s.disconnect o object
    t = u.setFd o object (-1) ∨ ∃ fd : Nat, u.ledger.openings fd = none ∧
      (t = (u.obtain o object fd).giveUp o object fd ∨ t = u.obtain o object fd) := by
  intro u
  unfold ensureConnected at h
  cases outcome with
  | socketFails errno => exact .inl (Prod.mk.inj (Option.some.inj h)).2.symm
  | indexFails fd errno | bindFails fd errno =>
      simp only at h
      split_ifs at h with hFree
      exact .inr ⟨fd, hFree, .inl (Prod.mk.inj (Option.some.inj h)).2.symm⟩
  | connected fd =>
      simp only at h
      split_ifs at h with hFree
      exact .inr ⟨fd, hFree, .inr (Prod.mk.inj (Option.some.inj h)).2.symm⟩

theorem ensureConnected_result {s t : SocketObjects} {o : Nat} {object : SocketObject}
    {outcome : ConnectOutcome} {result : Except Error Unit}
    (h : s.ensureConnected o object outcome = some (result, t)) :
    result = outcome.result object.socket.interfaceName := by
  unfold ensureConnected at h
  cases outcome with
  | socketFails errno => exact (Prod.mk.inj (Option.some.inj h)).1.symm
  | indexFails fd errno | bindFails fd errno | connected fd =>
      simp only at h
      split_ifs at h
      exact (Prod.mk.inj (Option.some.inj h)).1.symm

/-- The other objects are not affected. -/
theorem disconnect_objects {s : SocketObjects} {o other : Nat} (object : SocketObject)
    (hNe : other ≠ o) : (s.disconnect o object).objects other = s.objects other := by
  unfold disconnect giveUp closeFd
  split_ifs
  · split <;> simp [setFd, hNe]
  · rfl

theorem moveAssign_eq (s : SocketObjects) (o src : Nat) (object other : SocketObject) :
    s.moveAssign o src object other = ((s.disconnect o object).setFd o object (-1)).moveConstruct o src
      { object with socket := other.socket } := by
  unfold moveAssign disconnect giveUp
  split_ifs with hPos
  · simp [setFd, Ledger.forget]
  · rfl

theorem destroy_eq (s : SocketObjects) (o : Nat) (object : SocketObject) :
    s.destroy o object = { s.giveUp o object object.socket.sockFd with
      objects := Function.update s.objects o none } := by
  unfold destroy giveUp closeFd
  split <;> rfl

section Held

variable {s t : SocketObjects} {o : Nat} {object : SocketObject}

theorem disconnect_held_of_ne (s : SocketObjects) (object : SocketObject) {other : Nat}
    (hNe : other ≠ o) : (s.disconnect o object).ledger.held other = s.ledger.held other := by
  unfold disconnect giveUp closeFd
  split_ifs
  · split <;> exact Ledger.held_forget_of_ne hNe
  · rfl

theorem disconnect_nextSerial (s : SocketObjects) (o : Nat) (object : SocketObject) :
    (s.disconnect o object).ledger.nextSerial = s.ledger.nextSerial := by
  unfold disconnect giveUp closeFd
  split_ifs
  · split <;> rfl
  · rfl

/-- `ensure_connected` leaves the object with nothing, or with a new descriptor. -/
theorem ensureConnected_held {outcome : ConnectOutcome} {result : Except Error Unit}
    (hConnect : s.ensureConnected o object outcome = some (result, t)) {other fd serial : Nat}
    (hHeld : t.ledger.held other = some (fd, serial)) :
    other = o ∧ serial = s.ledger.nextSerial ∨
      other ≠ o ∧ s.ledger.held other = some (fd, serial) := by
  rcases eq_or_ne other o with rfl | hNe
  · refine .inl ⟨rfl, ?_⟩
    rw [← disconnect_nextSerial s other object]
    rcases ensureConnected_cases hConnect with rfl | ⟨number, _, rfl | rfl⟩
    · rw [setFd_ledger, Ledger.held_forget_self] at hHeld
      cases hHeld
    · simp [giveUp, Ledger.forget] at hHeld
    · rw [held_obtain, Option.some.injEq, Prod.mk.injEq] at hHeld
      exact hHeld.2.symm
  · refine .inr ⟨hNe, ?_⟩
    rw [← disconnect_held_of_ne s object hNe]
    rcases ensureConnected_cases hConnect with rfl | ⟨number, _, rfl | rfl⟩
    · exact (Ledger.held_of_forget hHeld).2
    · simpa [giveUp, closeFd, obtain, Ledger.forget, Ledger.issue, Ledger.close, hNe] using hHeld
    · simpa [obtain, Ledger.forget, Ledger.issue, hNe] using hHeld

/-- The object now has what the source had. -/
theorem moveAssign_held {src : Nat} {other : SocketObject} (hNe : o ≠ src) {holder : Nat}
    {entry : Nat × Nat} (hHeld : (s.moveAssign o src object other).ledger.held holder = some entry) :
    holder = o ∧ s.ledger.held src = some entry ∨
      holder ≠ o ∧ s.ledger.held holder = some entry := by
  rw [moveAssign_eq] at hHeld
  obtain ⟨_, ⟨rfl, hFrom⟩ | ⟨hNotO, hSame⟩⟩ := Ledger.held_pass hHeld
  · rw [setFd_ledger, Ledger.held_forget_of_ne hNe.symm, disconnect_held_of_ne s object hNe.symm] at hFrom
    exact .inl ⟨rfl, hFrom⟩
  · rw [setFd_ledger, Ledger.held_forget_of_ne hNotO, disconnect_held_of_ne s object hNotO] at hSame
    exact .inr ⟨hNotO, hSame⟩

theorem destroy_held {other : Nat} {entry : Nat × Nat}
    (hHeld : (s.destroy o object).ledger.held other = some entry) :
    other ≠ o ∧ s.ledger.held other = some entry := by
  obtain ⟨hNe, hBefore⟩ := Ledger.held_of_forget hHeld
  refine ⟨hNe, ?_⟩
  unfold closeFd at hBefore
  split at hBefore <;> exact hBefore

end Held

inductive Step (s : SocketObjects) : Action → SocketObjects → Prop where
  | constructed {o : Nat} (holder : SocketHolder) (interfaceName : List UInt8)
      (hNone : s.objects o = none) :
      Step s (.construct o holder interfaceName)
        { s with objects := Function.update s.objects o (some ⟨holder, ⟨0, interfaceName⟩⟩) }
  | connected {o : Nat} {object : SocketObject} {outcome : ConnectOutcome} {result : Except Error Unit}
      {t : SocketObjects} (hObject : s.objects o = some object)
      (hConnect : s.ensureConnected o object outcome = some (result, t)) :
      Step s (.connect o outcome) t
  | moveConstructed {o src : Nat} {object : SocketObject} (hNone : s.objects o = none)
      (hSrc : s.objects src = some object) (hHolder : object.holder ≠ .dispatcher) :
      Step s (.moveConstruct o src) (s.moveConstruct o src object)
  | selfAssigned {o : Nat} : Step s (.moveAssign o o) s
  | moveAssigned {o src : Nat} {object other : SocketObject} (hNe : o ≠ src)
      (hObject : s.objects o = some object) (hSrc : s.objects src = some other)
      (hHolder : object.holder ≠ .dispatcher) :
      Step s (.moveAssign o src) (s.moveAssign o src object other)
  | destroyed {o : Nat} {object : SocketObject} (hObject : s.objects o = some object) :
      Step s (.destroy o) (s.destroy o object)
  | opened {fd : Nat} (hFree : s.ledger.openings fd = none) :
      Step s (.openForeign fd) { s with ledger := s.ledger.openForeign fd }
  | closed {fd : Nat} (hForeign : s.ledger.openings fd = some .foreign) :
      Step s (.closeForeign fd) { s with ledger := s.ledger.close fd }

theorem ne_of_objects {s : SocketObjects} {o src : Nat} {object : SocketObject}
    (hNone : s.objects o = none) (hSrc : s.objects src = some object) : o ≠ src := by
  rintro rfl
  simp [hNone] at hSrc

theorem step_cases {s t : SocketObjects} {action : Action} (h : s.step action = some t) :
    Step s action t := by
  cases action with
  | construct o holder interfaceName =>
      simp only [step] at h
      split at h
      · cases h
      · next hNone => exact Option.some.inj h ▸ .constructed holder interfaceName hNone
  | connect o outcome =>
      simp only [step] at h
      split at h
      · cases h
      · next object hObject =>
          obtain ⟨⟨result, u⟩, hConnect, rfl⟩ := Option.map_eq_some_iff.mp h
          exact .connected hObject hConnect
  | moveConstruct o src =>
      simp only [step] at h
      split at h
      · next object hNone hSrc =>
          split_ifs at h with hHolder
          exact Option.some.inj h ▸ .moveConstructed hNone hSrc hHolder
      · cases h
  | moveAssign o src =>
      simp only [step] at h
      split at h
      · next object other hObject hSrc =>
          split_ifs at h with hHolder hSelf
          · subst hSelf
            exact Option.some.inj h ▸ .selfAssigned
          · exact Option.some.inj h ▸ .moveAssigned hSelf hObject hSrc (not_or.mp hHolder).1
      · cases h
  | destroy o =>
      simp only [step] at h
      split at h
      · cases h
      · next object hObject => exact Option.some.inj h ▸ .destroyed hObject
  | openForeign fd =>
      simp only [step] at h
      split_ifs at h with hFree
      exact Option.some.inj h ▸ .opened hFree
  | closeForeign fd =>
      simp only [step] at h
      split_ifs at h with hForeign
      exact Option.some.inj h ▸ .closed hForeign

end HyCAN.SocketObjects
