import Mathlib.Logic.Function.Basic
import Mathlib.Tactic.SplitIfs

/-! Numbers that are handed out, held and closed. A number can be handed out again, so
each opening has a serial, and a holder holds an opening and not just a number. -/
namespace Ownership

universe u

/-- Somebody else's opening, or one that was handed out to a holder. -/
inductive Opening where
  | foreign
  | issued (serial : Nat)
  deriving DecidableEq

/-- What is open behind each number, and the number and the opening each holder holds. -/
structure Ledger (Holder : Type u) where
  openings : Nat → Option Opening
  nextSerial : Nat
  held : Holder → Option (Nat × Nat)

namespace Ledger

variable {Holder : Type u} [DecidableEq Holder] (l : Ledger Holder)

/-- The opening behind the number is the one that the holder holds. -/
def owns (h : Holder) (n : Nat) : Bool :=
  match l.held h with
  | none => false
  | some (number, serial) => number = n ∧ l.openings n = some (.issued serial)

/-- The holder loses track of what it holds. -/
def forget (h : Holder) : Ledger Holder :=
  { l with held := Function.update l.held h none }

/-- A free number for the holder. -/
def issue (h : Holder) (n : Nat) : Ledger Holder :=
  { l with
    openings := Function.update l.openings n (some (.issued l.nextSerial))
    nextSerial := l.nextSerial + 1
    held := Function.update l.held h (some (n, l.nextSerial)) }

def close (n : Nat) : Ledger Holder :=
  { l with openings := Function.update l.openings n none }

/-- The second holder takes over from the first. -/
def pass (h other : Holder) : Ledger Holder :=
  { l with held := Function.update (Function.update l.held other (l.held h)) h none }

def openForeign (n : Nat) : Ledger Holder :=
  { l with openings := Function.update l.openings n (some .foreign) }

/-- What is held is open, nothing is held twice, and serials are not used again. -/
structure Sound : Prop where
  live : ∀ h n serial, l.held h = some (n, serial) → l.openings n = some (.issued serial)
  alone : ∀ h other n serial, l.held h = some (n, serial) → l.held other = some (n, serial) →
    h = other
  fresh : ∀ n serial, l.openings n = some (.issued serial) → serial < l.nextSerial

/-- Whatever was handed out and is still open is held. -/
def Covered : Prop :=
  ∀ n serial, l.openings n = some (.issued serial) → ∃ h, l.held h = some (n, serial)

variable {l}

omit [DecidableEq Holder] in
theorem owns_iff {h : Holder} {n : Nat} :
    l.owns h n = true ↔
      ∃ serial, l.held h = some (n, serial) ∧ l.openings n = some (.issued serial) := by
  unfold owns
  cases hHeld : l.held h with
  | none => simp
  | some entry =>
      obtain ⟨number, serial⟩ := entry
      constructor
      · intro hOwns
        obtain ⟨rfl, hOpen⟩ := of_decide_eq_true hOwns
        exact ⟨serial, rfl, hOpen⟩
      · rintro ⟨other, hSame, hOpen⟩
        obtain ⟨rfl, rfl⟩ := Prod.mk.inj (Option.some.inj hSame)
        exact decide_eq_true ⟨rfl, hOpen⟩

omit [DecidableEq Holder] in
theorem Sound.owns {h : Holder} {n serial : Nat} (hSound : l.Sound)
    (hHeld : l.held h = some (n, serial)) : l.owns h n = true :=
  owns_iff.mpr ⟨serial, hHeld, hSound.live h n serial hHeld⟩

omit [DecidableEq Holder] in
/-- Nothing has two owners. -/
theorem Sound.owner_unique {h other : Holder} {n : Nat} (hSound : l.Sound)
    (hOwns : l.owns h n = true) (hOther : l.owns other n = true) : h = other := by
  obtain ⟨serial, hHeld, hOpen⟩ := owns_iff.mp hOwns
  obtain ⟨same, hSame, hAgain⟩ := owns_iff.mp hOther
  rw [hOpen] at hAgain
  cases hAgain
  exact hSound.alone h other n serial hHeld hSame

theorem held_forget_self (h : Holder) : (l.forget h).held h = none := by
  simp [forget]

theorem held_forget_of_ne {h other : Holder} (hNe : other ≠ h) :
    (l.forget h).held other = l.held other := by
  simp [forget, hNe]

theorem held_of_forget {h other : Holder} {entry : Nat × Nat}
    (hHeld : (l.forget h).held other = some entry) : other ≠ h ∧ l.held other = some entry := by
  rcases eq_or_ne other h with rfl | hNe
  · simp [forget] at hHeld
  · exact ⟨hNe, by rwa [held_forget_of_ne hNe] at hHeld⟩

theorem Sound.forget (hSound : l.Sound) (h : Holder) : (l.forget h).Sound where
  live other n serial hHeld := hSound.live other n serial (held_of_forget hHeld).2
  alone first second n serial hFirst hSecond :=
    hSound.alone first second n serial (held_of_forget hFirst).2 (held_of_forget hSecond).2
  fresh := hSound.fresh

/-- Only a holder of nothing may lose track. -/
theorem Sound.covered_forget_iff (hSound : l.Sound) (h : Holder) :
    (l.forget h).Covered ↔ l.Covered ∧ l.held h = none := by
  constructor
  · intro hAfter
    refine ⟨?_, ?_⟩
    · intro n serial hOpen
      obtain ⟨other, hOther⟩ := hAfter n serial hOpen
      exact ⟨other, (held_of_forget hOther).2⟩
    · by_contra hHeld
      obtain ⟨⟨n, serial⟩, hEntry⟩ := Option.ne_none_iff_exists'.mp hHeld
      obtain ⟨other, hOther⟩ := hAfter n serial (hSound.live h n serial hEntry)
      obtain ⟨hNe, hBefore⟩ := held_of_forget hOther
      exact hNe (hSound.alone other h n serial hBefore hEntry)
  · rintro ⟨hCovered, hHeld⟩ n serial hOpen
    obtain ⟨other, hOther⟩ := hCovered n serial hOpen
    have hNe : other ≠ h := by
      rintro rfl
      simp [hHeld] at hOther
    exact ⟨other, by rw [held_forget_of_ne hNe, hOther]⟩

/-- A holder closes what it owns and keeps no track of it. -/
theorem Sound.close_forget (hSound : l.Sound) {h : Holder} {n : Nat} (hOwns : l.owns h n = true) :
    ((l.close n).forget h).Sound := by
  obtain ⟨serial, hHeld, hOpen⟩ := owns_iff.mp hOwns
  refine ⟨?_, ?_, ?_⟩
  · intro other m k hOther
    obtain ⟨hNe, hBefore⟩ := held_of_forget hOther
    have hNumber : m ≠ n := by
      rintro rfl
      have hSame := hSound.live other m k hBefore
      rw [hOpen] at hSame
      cases hSame
      exact hNe (hSound.alone other h m serial hBefore hHeld)
    simpa [Ledger.forget, Ledger.close, hNumber] using hSound.live other m k hBefore
  · intro first second m k hFirst hSecond
    exact hSound.alone first second m k (held_of_forget hFirst).2 (held_of_forget hSecond).2
  · intro m k hAfter
    rcases eq_or_ne m n with rfl | hNumber
    · simp [Ledger.forget, Ledger.close] at hAfter
    · exact hSound.fresh m k (by simpa [Ledger.forget, Ledger.close, hNumber] using hAfter)

theorem Sound.covered_close_forget_iff (hSound : l.Sound) {h : Holder} {n serial : Nat}
    (hHeld : l.held h = some (n, serial)) : ((l.close n).forget h).Covered ↔ l.Covered := by
  constructor
  · intro hAfter m k hOpen
    rcases eq_or_ne m n with rfl | hNumber
    · have hLive := hSound.live h m serial hHeld
      rw [hOpen] at hLive
      cases hLive
      exact ⟨h, hHeld⟩
    · obtain ⟨other, hOther⟩ :=
        hAfter m k (by simpa [Ledger.forget, Ledger.close, hNumber] using hOpen)
      exact ⟨other, (held_of_forget hOther).2⟩
  · intro hCovered m k hAfter
    rcases eq_or_ne m n with rfl | hNumber
    · simp [Ledger.forget, Ledger.close] at hAfter
    · obtain ⟨other, hOther⟩ :=
        hCovered m k (by simpa [Ledger.forget, Ledger.close, hNumber] using hAfter)
      have hNe : other ≠ h := by
        rintro rfl
        rw [hHeld] at hOther
        cases hOther
        exact hNumber rfl
      exact ⟨other, by rw [held_forget_of_ne hNe]; exact hOther⟩

theorem held_issue_of_ne {h other : Holder} {n : Nat} (hNe : other ≠ h) :
    (l.issue h n).held other = l.held other := by
  simp [issue, hNe]

theorem Sound.issue (hSound : l.Sound) (h : Holder) {n : Nat} (hFree : l.openings n = none) :
    (l.issue h n).Sound := by
  have hOpen : ∀ m k, (l.issue h n).openings m = some (.issued k) →
      m = n ∧ k = l.nextSerial ∨ m ≠ n ∧ l.openings m = some (.issued k) := by
    intro m k hAfter
    rcases eq_or_ne m n with rfl | hNumber
    · refine .inl ⟨rfl, ?_⟩
      simpa [Ledger.issue, eq_comm] using hAfter
    · exact .inr ⟨hNumber, by simpa [Ledger.issue, hNumber] using hAfter⟩
  have hHeld : ∀ other m k, (l.issue h n).held other = some (m, k) →
      other = h ∧ m = n ∧ k = l.nextSerial ∨ other ≠ h ∧ l.held other = some (m, k) := by
    intro other m k hAfter
    rcases eq_or_ne other h with rfl | hNe
    · refine .inl ⟨rfl, ?_⟩
      simpa [Ledger.issue, eq_comm] using hAfter
    · exact .inr ⟨hNe, by rwa [held_issue_of_ne hNe] at hAfter⟩
  refine ⟨?_, ?_, ?_⟩
  · intro other m k hAfter
    rcases hHeld other m k hAfter with ⟨_, rfl, rfl⟩ | ⟨_, hBefore⟩
    · simp [Ledger.issue]
    · have hLive := hSound.live other m k hBefore
      have hNumber : m ≠ n := by
        rintro rfl
        simp [hFree] at hLive
      simpa [Ledger.issue, hNumber] using hLive
  · intro first second m k hFirst hSecond
    have hOld : ∀ other, l.held other = some (m, k) → k < l.nextSerial := fun other hBefore =>
      hSound.fresh m k (hSound.live other m k hBefore)
    rcases hHeld first m k hFirst with ⟨rfl, _, rfl⟩ | ⟨_, hBefore⟩ <;>
      rcases hHeld second m _ hSecond with ⟨rfl, _, hNew⟩ | ⟨_, hAgain⟩
    · rfl
    · exact absurd (hOld second hAgain) (Nat.lt_irrefl _)
    · exact absurd (hNew ▸ hOld first hBefore) (Nat.lt_irrefl _)
    · exact hSound.alone first second m k hBefore hAgain
  · intro m k hAfter
    rcases hOpen m k hAfter with ⟨_, rfl⟩ | ⟨_, hBefore⟩
    · exact Nat.lt_succ_self _
    · exact Nat.lt_succ_of_lt (hSound.fresh m k hBefore)

theorem covered_issue_iff {h : Holder} (hHeld : l.held h = none) {n : Nat}
    (hFree : l.openings n = none) : (l.issue h n).Covered ↔ l.Covered := by
  constructor
  · intro hAfter m k hOpen
    have hNumber : m ≠ n := by
      rintro rfl
      simp [hFree] at hOpen
    obtain ⟨other, hOther⟩ := hAfter m k (by simpa [issue, hNumber] using hOpen)
    have hNe : other ≠ h := by
      rintro rfl
      have hNew : n = m ∧ l.nextSerial = k := by simpa [issue] using hOther
      exact hNumber hNew.1.symm
    exact ⟨other, by rwa [held_issue_of_ne hNe] at hOther⟩
  · intro hCovered m k hAfter
    rcases eq_or_ne m n with rfl | hNumber
    · have hSerial : k = l.nextSerial := by
        simpa [issue, eq_comm] using hAfter
      exact ⟨h, by simp [issue, hSerial]⟩
    · obtain ⟨other, hOther⟩ := hCovered m k (by simpa [issue, hNumber] using hAfter)
      have hNe : other ≠ h := by
        rintro rfl
        simp [hHeld] at hOther
      exact ⟨other, by rw [held_issue_of_ne hNe, hOther]⟩

theorem held_pass {h other holder : Holder} {entry : Nat × Nat}
    (hAfter : (l.pass h other).held holder = some entry) :
    holder ≠ h ∧ (holder = other ∧ l.held h = some entry ∨ holder ≠ other ∧ l.held holder = some entry) := by
  rcases eq_or_ne holder h with rfl | hNe
  · simp [pass] at hAfter
  · refine ⟨hNe, ?_⟩
    rcases eq_or_ne holder other with rfl | hOther
    · exact .inl ⟨rfl, by simpa [pass, hNe] using hAfter⟩
    · exact .inr ⟨hOther, by simpa [pass, hNe, hOther] using hAfter⟩

/-- What is passed on to a holder of nothing keeps exactly one holder. -/
theorem Sound.pass (hSound : l.Sound) {h other : Holder} (hHeld : l.held other = none) :
    (l.pass h other).Sound := by
  -- each entry after the pass was held by one holder before it
  have hBefore : ∀ holder entry, (l.pass h other).held holder = some entry →
      l.held (if holder = other then h else holder) = some entry := by
    intro holder entry hAfter
    obtain ⟨_, ⟨rfl, hFrom⟩ | ⟨hNe, hSame⟩⟩ := held_pass hAfter
    · rwa [if_pos rfl]
    · rwa [if_neg hNe]
  refine ⟨?_, ?_, hSound.fresh⟩
  · intro holder n serial hAfter
    exact hSound.live _ n serial (hBefore holder _ hAfter)
  · intro first second n serial hFirst hSecond
    have hSame := hSound.alone _ _ n serial (hBefore first _ hFirst) (hBefore second _ hSecond)
    have hFirstNe := (held_pass hFirst).1
    have hSecondNe := (held_pass hSecond).1
    split_ifs at hSame with hIs hIsToo hIsToo
    · rw [hIs, hIsToo]
    · exact absurd hSame.symm hSecondNe
    · exact absurd hSame hFirstNe
    · exact hSame

theorem covered_pass_iff {h other : Holder} (hNe : h ≠ other) (hHeld : l.held other = none) :
    (l.pass h other).Covered ↔ l.Covered := by
  constructor
  · intro hAfter n serial hOpen
    obtain ⟨holder, hHolder⟩ := hAfter n serial hOpen
    obtain ⟨_, ⟨_, hFrom⟩ | ⟨_, hSame⟩⟩ := held_pass hHolder
    · exact ⟨h, hFrom⟩
    · exact ⟨holder, hSame⟩
  · intro hCovered n serial hOpen
    obtain ⟨holder, hHolder⟩ := hCovered n serial hOpen
    have hNotOther : holder ≠ other := by
      rintro rfl
      simp [hHeld] at hHolder
    rcases eq_or_ne holder h with rfl | hNotFrom
    · exact ⟨other, by simp [pass, hNe.symm, hHolder]⟩
    · exact ⟨holder, by simp [pass, hNotFrom, hNotOther, hHolder]⟩

omit [DecidableEq Holder] in
theorem issued_openForeign {n m serial : Nat} (hFree : l.openings n = none) :
    (l.openForeign n).openings m = some (.issued serial) ↔ l.openings m = some (.issued serial) := by
  rcases eq_or_ne m n with rfl | hNumber
  · simp [openForeign, hFree]
  · simp [openForeign, hNumber]

omit [DecidableEq Holder] in
theorem issued_closeForeign {n m serial : Nat} (hForeign : l.openings n = some .foreign) :
    (l.close n).openings m = some (.issued serial) ↔ l.openings m = some (.issued serial) := by
  rcases eq_or_ne m n with rfl | hNumber
  · simp [close, hForeign]
  · simp [close, hNumber]

omit [DecidableEq Holder] in
/-- Steps of others that leave the issued openings alone. -/
theorem Sound.of_issued {after : Ledger Holder} (hSound : l.Sound) (hHeld : after.held = l.held)
    (hSerial : after.nextSerial = l.nextSerial) (hIssued : ∀ n serial,
      after.openings n = some (.issued serial) ↔ l.openings n = some (.issued serial)) :
    after.Sound where
  live h n serial hEntry := (hIssued n serial).mpr (hSound.live h n serial (hHeld ▸ hEntry))
  alone h other n serial hEntry hOther :=
    hSound.alone h other n serial (hHeld ▸ hEntry) (hHeld ▸ hOther)
  fresh n serial hOpen := hSerial ▸ hSound.fresh n serial ((hIssued n serial).mp hOpen)

omit [DecidableEq Holder] in
theorem covered_iff_of_issued {after : Ledger Holder} (hHeld : after.held = l.held)
    (hIssued : ∀ n serial,
      after.openings n = some (.issued serial) ↔ l.openings n = some (.issued serial)) :
    after.Covered ↔ l.Covered := by
  simp only [Covered, hIssued, hHeld]

end Ledger
end Ownership
