import Mathlib.Data.List.Basic
import Mathlib.Data.UInt

/-! Values that cross a byte stream as the memory of a struct, and what a receiver makes
of them that reads once. A stream keeps the bytes and their order, not the pieces. -/
namespace ByteStream

/-- A word in little-endian order. -/
def wordBytes (word : UInt32) : List UInt8 :=
  [UInt8.ofNat word.toNat, UInt8.ofNat (word.toNat / 2 ^ 8), UInt8.ofNat (word.toNat / 2 ^ 16),
    UInt8.ofNat (word.toNat / 2 ^ 24)]

def wordOf (first second third fourth : UInt8) : UInt32 :=
  UInt32.ofNat (first.toNat + second.toNat * 2 ^ 8 + third.toNat * 2 ^ 16 + fourth.toNat * 2 ^ 24)

@[simp] theorem length_wordBytes (word : UInt32) : (wordBytes word).length = 4 := rfl

theorem wordOf_wordBytes (word : UInt32) :
    wordOf (UInt8.ofNat word.toNat) (UInt8.ofNat (word.toNat / 2 ^ 8))
      (UInt8.ofNat (word.toNat / 2 ^ 16)) (UInt8.ofNat (word.toNat / 2 ^ 24)) = word := by
  have hBound := word.toNat_lt
  have hDigits : word.toNat % 256 + word.toNat / 2 ^ 8 % 256 * 2 ^ 8 +
      word.toNat / 2 ^ 16 % 256 * 2 ^ 16 + word.toNat / 2 ^ 24 % 256 * 2 ^ 24 = word.toNat := by
    omega
  simp only [wordOf, UInt8.toNat_ofNat']
  rw [hDigits, UInt32.ofNat_toNat]

/-- The values that a signed word can have. -/
def IsInt (value : Int) : Prop :=
  -2 ^ 31 ≤ value ∧ value < 2 ^ 31

instance (value : Int) : Decidable (IsInt value) := inferInstanceAs (Decidable (_ ∧ _))

def intBytes (value : Int) : List UInt8 :=
  wordBytes (Int32.ofInt value).toUInt32

def intOf (first second third fourth : UInt8) : Int :=
  (wordOf first second third fourth).toInt32.toInt

theorem isInt_intOf (first second third fourth : UInt8) : IsInt (intOf first second third fourth) :=
  ⟨Int32.le_toInt _, Int32.toInt_lt _⟩

/-- A struct type whose values have several memory representations, one for each content
of the padding. -/
structure Layout (Value : Type) where
  size : Nat
  encode : Value → List UInt8 → List UInt8
  decode : List UInt8 → Option Value
  length_encode : ∀ value padding, (encode value padding).length = size
  decode_encode : ∀ value padding, decode (encode value padding) = some value
  length_of_decode : ∀ bytes value, decode bytes = some value → bytes.length = size

/-- What one `send` of the data gives to the stream, and the pieces in which it arrives. -/
structure Delivery (data : List UInt8) where
  accepted : Nat
  accepted_pos : 0 < accepted
  accepted_le : accepted ≤ data.length
  pieces : List (List UInt8)
  nonempty : [] ∉ pieces
  inOrder : pieces.flatten = data.take accepted

/-- One `recv`, once there is something to receive. -/
def recvOnce (size : Nat) : List (List UInt8) → List UInt8
  | [] => []
  | piece :: _ => piece.take size

namespace Delivery

variable {data : List UInt8} (delivery : Delivery data)

theorem length_flatten : delivery.pieces.flatten.length = delivery.accepted := by
  rw [delivery.inOrder, List.length_take, min_eq_left delivery.accepted_le]

/-- A piece of the full length is all that there is. -/
theorem pieces_eq_of_length {piece : List UInt8} {rest : List (List UInt8)}
    (h : delivery.pieces = piece :: rest) (hLength : data.length ≤ piece.length) : delivery.pieces = [data] := by
  have hTotal := delivery.length_flatten
  have hWithin := delivery.accepted_le
  rw [h, List.flatten_cons, List.length_append] at hTotal
  have hNone : rest.flatten = [] := by
    apply List.eq_nil_of_length_eq_zero
    omega
  have hRest : rest = [] := by
    cases rest with
    | nil => rfl
    | cons next others =>
        have hEmpty : next = [] := (List.append_eq_nil_iff.mp hNone).1
        exact absurd (by simp [h, hEmpty]) delivery.nonempty
  have hWhole : delivery.accepted = data.length := by
    rw [hNone, List.length_nil] at hTotal
    omega
  have hPiece := delivery.inOrder
  rw [h, hRest, hWhole, List.take_length] at hPiece
  rw [h, hRest]
  simpa using hPiece

/-- A single `recv` gets the full length exactly if all of the data comes as one piece. -/
theorem length_recvOnce_iff (hData : data ≠ []) :
    (recvOnce data.length delivery.pieces).length = data.length ↔ delivery.pieces = [data] := by
  constructor
  · intro hLength
    cases hPieces : delivery.pieces with
    | nil =>
        rw [hPieces, recvOnce] at hLength
        exact absurd (List.eq_nil_of_length_eq_zero hLength.symm) hData
    | cons piece rest =>
        rw [hPieces, recvOnce, List.length_take] at hLength
        rw [← hPieces]
        apply delivery.pieces_eq_of_length hPieces
        omega
  · intro hWhole
    rw [hWhole, recvOnce, List.take_length]

end Delivery

namespace Layout

variable {Value : Type} (layout : Layout Value) {value : Value} {padding : List UInt8}

/-- The receiver decodes the value exactly if it comes as one piece. -/
theorem decode_recvOnce_iff (hSize : 0 < layout.size) (delivery : Delivery (layout.encode value padding)) :
    layout.decode (recvOnce layout.size delivery.pieces) = some value ↔
      delivery.pieces = [layout.encode value padding] := by
  have hLength := layout.length_encode value padding
  have hData : layout.encode value padding ≠ [] := by
    intro hNil
    rw [hNil, List.length_nil] at hLength
    omega
  rw [← delivery.length_recvOnce_iff hData, hLength]
  constructor
  · intro hDecoded
    exact layout.length_of_decode _ _ hDecoded
  · intro hWhole
    rw [← hLength] at hWhole ⊢
    rw [(delivery.length_recvOnce_iff hData).mp hWhole, recvOnce, List.take_length]
    exact layout.decode_encode value padding

/-- Any part of the bytes that has the full length is all of them. -/
theorem decode_take {count : Nat} {found : Value}
    (h : layout.decode ((layout.encode value padding).take count) = some found) : found = value := by
  have hLength := layout.length_of_decode _ _ h
  rw [List.length_take, layout.length_encode] at hLength
  rw [List.take_of_length_le (by rw [layout.length_encode]; omega), layout.decode_encode] at h
  exact (Option.some.inj h).symm

end Layout
end ByteStream
