import Mathlib.Data.UInt

/-! Integers in decimal notation, as ASCII bytes. -/
namespace Decimal

def digit (c : Char) : UInt8 :=
  UInt8.ofNat c.toNat

def digits (n : Nat) : List UInt8 :=
  (Nat.toDigits 10 n).map digit

/-- The digits, after a minus sign if the number is negative. -/
def text : Int → List UInt8
  | .ofNat n => digits n
  | .negSucc n => 45 :: digits (n + 1)

theorem toNat_digit {c : Char} (h : c.isDigit = true) : (digit c).toNat = c.toNat := by
  have hBounds := Char.isDigit_iff_toNat.mp h
  have hUpper : c.toNat ≤ 57 := hBounds.2
  rw [digit, UInt8.toNat_ofNat']
  omega

theorem isDigit_of_mem {n : Nat} {c : Char} (h : c ∈ Nat.toDigits 10 n) : c.isDigit = true :=
  Nat.isDigit_of_mem_toDigits (by decide) (by decide) h

/-- A digit's byte lies between those of `0` and `9`. -/
theorem mem_digits {n : Nat} {byte : UInt8} (h : byte ∈ digits n) :
    48 ≤ byte.toNat ∧ byte.toNat ≤ 57 := by
  obtain ⟨c, hMem, rfl⟩ := List.mem_map.mp h
  rw [toNat_digit (isDigit_of_mem hMem)]
  exact Char.isDigit_iff_toNat.mp (isDigit_of_mem hMem)

/-- The characters can be read back from the bytes. -/
theorem chars_digits (n : Nat) :
    (digits n).map (fun byte => Char.ofNat byte.toNat) = Nat.toDigits 10 n := by
  rw [digits, List.map_map]
  conv => rhs; rw [← List.map_id (Nat.toDigits 10 n)]
  apply List.map_congr_left
  intro c hMem
  rw [Function.comp_apply, toNat_digit (isDigit_of_mem hMem), Char.ofNat_toNat, id_eq]

theorem digits_injective : Function.Injective digits := by
  intro m n hSame
  have hChars : Nat.toDigits 10 m = Nat.toDigits 10 n := by
    rw [← chars_digits, ← chars_digits, hSame]
  calc
    m = Nat.ofDigitChars 10 (Nat.toDigits 10 m) 0 := Nat.ofDigitChars_ten_toDigits.symm
    _ = n := by rw [hChars, Nat.ofDigitChars_ten_toDigits]

theorem text_injective : Function.Injective text := by
  have hSign (n k : Nat) (rest : List UInt8) : digits n ≠ 45 :: rest := by
    intro hSame
    have hDigit : 48 ≤ (45 : UInt8).toNat ∧ (45 : UInt8).toNat ≤ 57 :=
      mem_digits (n := n) (by simp [hSame])
    exact absurd hDigit.1 (by decide)
  intro a b hSame
  cases a with
  | ofNat m =>
      cases b with
      | ofNat n => rw [digits_injective hSame]
      | negSucc n => exact absurd hSame (hSign m n _)
  | negSucc m =>
      cases b with
      | ofNat n => exact absurd hSame.symm (hSign n m _)
      | negSucc n =>
          have hDigits := digits_injective (List.cons.inj hSame).2
          rw [Nat.succ.inj hDigits]

theorem zero_not_mem_text (n : Int) : 0 ∉ text n := by
  have hDigits (k : Nat) : 0 ∉ digits k := by
    intro hMem
    exact absurd (mem_digits hMem).1 (by decide)
  cases n with
  | ofNat n => exact hDigits n
  | negSucc n => simp [text, hDigits]

theorem length_text_le {n : Int} {k : Nat} (hPos : 0 < k) (h : n.natAbs < 10 ^ k) :
    (text n).length ≤ k + 1 := by
  have hDigits {m : Nat} (hm : m < 10 ^ k) : (digits m).length ≤ k := by
    rw [digits, List.length_map]
    exact (Nat.length_toDigits_le_iff (by decide) hPos).mpr hm
  cases n with
  | ofNat n =>
      have hLength : (digits n).length ≤ k := hDigits h
      simp only [text]
      omega
  | negSucc n =>
      have hLength : (digits (n + 1)).length ≤ k := hDigits h
      simp only [text, List.length_cons]
      omega

end Decimal
