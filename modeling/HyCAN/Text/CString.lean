import Mathlib.Data.List.TakeWhile
import Mathlib.Data.UInt

/-! NUL-terminated text in memory. A reader is given an address and scans from
there, so what it sees depends on the bytes behind a field that has no NUL. -/
namespace CString

/-- The text at the start of the memory. -/
def read (memory : List UInt8) : List UInt8 :=
  memory.takeWhile (· ≠ 0)

/-- The number of bytes that the scan for the terminator looks at, the
terminator included. -/
def examined (memory : List UInt8) : Nat :=
  (read memory).length + 1

/-- `strncpy`: the first `n` bytes of the source's text, padded with NULs. -/
def strncpy (n : Nat) (source : List UInt8) : List UInt8 :=
  (read source).take n ++ List.replicate (n - (read source).length) 0

/-- A field of `n + 1` bytes, filled by `strncpy` and closed with a NUL. -/
def fill (n : Nat) (source : List UInt8) : List UInt8 :=
  strncpy n source ++ [0]

section Read

variable {field after text : List UInt8} {n : Nat}

@[simp] theorem read_nil : read [] = [] := rfl

@[simp] theorem read_cons_zero (rest : List UInt8) : read (0 :: rest) = [] := rfl

theorem read_cons_of_ne {byte : UInt8} (h : byte ≠ 0) (rest : List UInt8) :
    read (byte :: rest) = byte :: read rest := by
  simp [read, h]

theorem zero_not_mem_read (memory : List UInt8) : 0 ∉ read memory := by
  intro hMem
  have hNonzero := List.mem_takeWhile_imp hMem
  simp at hNonzero

theorem read_of_not_mem (h : 0 ∉ text) : read text = text := by
  rw [read, List.takeWhile_eq_self_iff]
  intro byte hMem
  have hNe : byte ≠ 0 := fun hZero => h (hZero ▸ hMem)
  simpa using hNe

/-- A NUL inside the field ends the text there, whatever follows the field. -/
theorem read_append_of_mem (h : 0 ∈ field) : read (field ++ after) = read field := by
  induction field with
  | nil => simp at h
  | cons byte rest ih =>
      by_cases hZero : byte = 0
      · rw [hZero, List.cons_append, read_cons_zero, read_cons_zero]
      · have hRest : 0 ∈ rest := by
          rcases List.mem_cons.mp h with hHead | hTail
          · exact absurd hHead.symm hZero
          · exact hTail
        rw [List.cons_append, read_cons_of_ne hZero, read_cons_of_ne hZero, ih hRest]

/-- Without one, the text goes on behind the field. -/
theorem read_append_of_not_mem (h : 0 ∉ field) : read (field ++ after) = field ++ read after := by
  rw [read, List.takeWhile_append_of_pos]
  · rfl
  · intro byte hMem
    have hNe : byte ≠ 0 := fun hZero => h (hZero ▸ hMem)
    simpa using hNe

theorem read_isPrefix (memory : List UInt8) : read memory <+: memory :=
  List.takeWhile_prefix _

/-- Cutting the text to length and reading it can be done in either order. -/
theorem read_take (n : Nat) (memory : List UInt8) : read (memory.take n) = (read memory).take n := by
  induction memory generalizing n with
  | nil => simp
  | cons byte rest ih =>
      cases n with
      | zero => rfl
      | succ n =>
          by_cases hZero : byte = 0
          · simp [hZero]
          · rw [List.take_succ_cons, read_cons_of_ne hZero, read_cons_of_ne hZero, List.take_succ_cons, ih]

/-- A NUL put behind the text changes nothing about it. -/
@[simp] theorem read_append_zero (memory : List UInt8) : read (memory ++ [0]) = read memory := by
  by_cases hMem : 0 ∈ memory
  · exact read_append_of_mem hMem
  · rw [read_append_of_not_mem hMem, read_cons_zero, List.append_nil, read_of_not_mem hMem]

theorem length_read_lt (h : 0 ∈ field) : (read field).length < field.length := by
  have hPrefix := read_isPrefix field
  have hNe : read field ≠ field := by
    intro hSame
    have hNone := zero_not_mem_read field
    rw [hSame] at hNone
    exact hNone h
  have hLe := hPrefix.length_le
  have hLength : (read field).length ≠ field.length := fun hSame => hNe (hPrefix.eq_of_length hSame)
  omega

/-- The scan stays in the field, whatever is behind it, exactly if the field
contains a NUL. -/
theorem examined_le_iff : (∀ after, examined (field ++ after) ≤ field.length) ↔ 0 ∈ field := by
  constructor
  · intro hInside
    by_contra hNone
    have hLe := hInside []
    rw [examined, read_append_of_not_mem hNone] at hLe
    simp only [read_nil, List.append_nil] at hLe
    omega
  · intro hMem after
    have hLt := length_read_lt hMem
    rw [examined, read_append_of_mem hMem]
    omega

end Read

section Fill

variable {source text : List UInt8} {n : Nat}

@[simp] theorem length_strncpy (n : Nat) (source : List UInt8) : (strncpy n source).length = n := by
  simp only [strncpy, List.length_append, List.length_take, List.length_replicate]
  omega

@[simp] theorem length_fill (n : Nat) (source : List UInt8) : (fill n source).length = n + 1 := by
  simp [fill]

theorem zero_mem_fill (n : Nat) (source : List UInt8) : 0 ∈ fill n source := by
  simp [fill]

/-- Reading a filled field gives back the source's text, cut to what fits. -/
theorem read_fill (n : Nat) (source : List UInt8) : read (fill n source) = (read source).take n := by
  have hText : 0 ∉ (read source).take n :=
    fun hMem => zero_not_mem_read source (List.mem_of_mem_take hMem)
  rw [fill, strncpy, List.append_assoc, read_append_of_not_mem hText]
  cases n - (read source).length <;> simp [read, List.replicate_succ]

/-- Of the source a field keeps only what is read from it again. -/
theorem fill_congr {other : List UInt8} (h : (read source).take n = (read other).take n) :
    fill n source = fill n other := by
  have hLength : min n (read source).length = min n (read other).length := by
    rw [← List.length_take, ← List.length_take, h]
  have hPad : n - (read source).length = n - (read other).length := by omega
  rw [fill, fill, strncpy, strncpy, h, hPad]

/-- Text that fits survives the field. -/
theorem read_fill_of_length_le (hText : 0 ∉ text) (hLength : text.length ≤ n) :
    read (fill n text) = text := by
  rw [read_fill, read_of_not_mem hText, List.take_of_length_le hLength]

/-- A prefix without NUL of the memory is a prefix of its text. -/
theorem prefix_read {start memory : List UInt8} (hStart : start <+: memory) (hText : 0 ∉ start) :
    start <+: read memory := by
  obtain ⟨rest, rfl⟩ := hStart
  rw [read_append_of_not_mem hText]
  exact List.prefix_append _ _

theorem prefix_read_iff {start memory : List UInt8} (hText : 0 ∉ start) :
    start <+: read memory ↔ start <+: memory :=
  ⟨fun hRead => hRead.trans (read_isPrefix memory), fun hStart => prefix_read hStart hText⟩

end Fill

end CString
