import HyCAN.Text.CString

/-! How a POSIX shell divides a line into words and removes the quotes. A line has words
here only if they do not depend on the environment and are those of one command: it has
no operator, no expansion, no pattern, and nothing follows a newline. -/
namespace Shell

/-- What a byte outside quotes is for the shell. -/
inductive Kind where
  | plain
  | blank
  | newline
  | singleQuote
  | doubleQuote
  | backslash
  /-- `;`, `&`, `|`, `<`, `>`, `(` and `)` -/
  | operator
  /-- `$` and the backquote -/
  | expansion
  /-- `*`, `?` and `[` -/
  | pattern
  /-- A comment, at the start of a word. -/
  | hash
  /-- A home directory, at the start of a word. -/
  | tilde
  deriving DecidableEq

/-- A `[` counts as a pattern also where no `]` follows. -/
def kind (byte : UInt8) : Kind :=
  if byte ∈ [32, 9] then .blank
  else if byte = 10 then .newline
  else if byte = 39 then .singleQuote
  else if byte = 34 then .doubleQuote
  else if byte = 92 then .backslash
  else if byte ∈ [59, 38, 124, 60, 62, 40, 41] then .operator
  else if byte ∈ [36, 96] then .expansion
  else if byte ∈ [42, 63, 91] then .pattern
  else if byte = 35 then .hash
  else if byte = 126 then .tilde
  else .plain

/-- How far the command has come: before its first word, in its line, or behind it. -/
inductive Stage where
  | before
  | within
  | behind
  deriving DecidableEq

/-- The stage after a newline. -/
def Stage.newline : Stage → Stage
  | .before => .before
  | .within | .behind => .behind

/-- Where the shell is, with what it has of the current word. -/
inductive Mode where
  | between (stage : Stage)
  | comment (stage : Stage)
  /-- After a backslash between words. -/
  | escapedStart (stage : Stage)
  | word (start : List UInt8)
  | escaped (start : List UInt8)
  | single (start : List UInt8)
  | double (start : List UInt8)
  | escapedDouble (start : List UInt8)

/-- A word begins, unless the command is over. -/
def begin (stage : Stage) (mode : Mode) : Option (List (List UInt8) × Mode) :=
  if stage = .behind then none else some ([], mode)

/-- One byte: the words that it ends, and the mode after it. A backslash takes away a
newline after it. -/
def step : Mode → UInt8 → Option (List (List UInt8) × Mode)
  | .between stage, byte =>
    match kind byte with
    | .plain => begin stage (.word [byte])
    | .blank => some ([], .between stage)
    | .newline => some ([], .between stage.newline)
    | .singleQuote => begin stage (.single [])
    | .doubleQuote => begin stage (.double [])
    | .backslash => some ([], .escapedStart stage)
    | .hash => some ([], .comment stage)
    | .operator | .expansion | .pattern | .tilde => none
  | .comment stage, byte =>
    if kind byte = .newline then some ([], .between stage.newline) else some ([], .comment stage)
  | .escapedStart stage, byte =>
    if kind byte = .newline then some ([], .between stage) else begin stage (.word [byte])
  | .word start, byte =>
    match kind byte with
    | .plain | .hash | .tilde => some ([], .word (start ++ [byte]))
    | .blank => some ([start], .between .within)
    | .newline => some ([start], .between .behind)
    | .singleQuote => some ([], .single start)
    | .doubleQuote => some ([], .double start)
    | .backslash => some ([], .escaped start)
    | .operator | .expansion | .pattern => none
  | .escaped start, byte =>
    if kind byte = .newline then some ([], .word start) else some ([], .word (start ++ [byte]))
  | .single start, byte =>
    if kind byte = .singleQuote then some ([], .word start) else some ([], .single (start ++ [byte]))
  | .double start, byte =>
    match kind byte with
    | .doubleQuote => some ([], .word start)
    | .backslash => some ([], .escapedDouble start)
    | .expansion => none
    | _ => some ([], .double (start ++ [byte]))
  | .escapedDouble start, byte =>
    match kind byte with
    | .newline => some ([], .double start)
    | .doubleQuote | .backslash | .expansion => some ([], .double (start ++ [byte]))
    | _ => some ([], .double (start ++ [92, byte]))

/-- The words that the end of the line ends. Quotes have to be closed. -/
def finish : Mode → Option (List (List UInt8))
  | .between _ | .comment _ => some []
  | .word start => some [start]
  | _ => none

def wordsFrom (mode : Mode) : List UInt8 → Option (List (List UInt8))
  | [] => finish mode
  | byte :: rest =>
    match step mode byte with
    | none => none
    | some (ended, next) => (wordsFrom next rest).map (ended ++ ·)

/-- The words of the line, if they are those of one simple command (or assignments, if
the first of them has the form). -/
def words (line : List UInt8) : Option (List (List UInt8)) :=
  wordsFrom (.between .before) line

/-- The words side by side, without quotes. -/
def unquoted (list : List (List UInt8)) : List UInt8 :=
  [32].intercalate list

/-- A byte that stands for itself inside a word. -/
def Literal (byte : UInt8) : Prop :=
  kind byte ∈ [.plain, .hash, .tilde]

instance (byte : UInt8) : Decidable (Literal byte) := inferInstanceAs (Decidable (_ ∈ _))

/-- A word that needs no quotes. -/
def Plain (word : List UInt8) : Prop :=
  word.head?.map kind = some .plain ∧ ∀ byte ∈ word, Literal byte

instance (word : List UInt8) : Decidable (Plain word) := inferInstanceAs (Decidable (_ ∧ _))

/-- The length of a line with these words and a separator behind each. -/
def weight (list : List (List UInt8)) : Nat :=
  (list.map (·.length + 1)).sum

/-- What the bytes before this point can still add to the weight. -/
def carried : Mode → Nat
  | .between stage | .comment stage | .escapedStart stage => if stage = .behind then 0 else 1
  | .word start | .escaped start | .single start | .double start => start.length + 1
  | .escapedDouble start => start.length + 2

/-- All bytes so far are in the words or separate two of them. -/
def Tight : Mode → Prop
  | .between _ => True
  | .word start => Plain start
  | _ => False

section Weight

variable {mode next : Mode} {byte : UInt8} {ended list : List (List UInt8)} {stage : Stage}
  {start word : List UInt8}

@[simp] theorem weight_nil : weight [] = 0 := rfl

@[simp] theorem weight_cons (word : List UInt8) (list : List (List UInt8)) :
    weight (word :: list) = word.length + 1 + weight list := by
  simp [weight]

@[simp] theorem weight_append (first second : List (List UInt8)) :
    weight (first ++ second) = weight first + weight second := by
  simp [weight]

theorem begin_eq_some : begin stage mode = some (ended, next) ↔
    stage ≠ .behind ∧ ended = [] ∧ next = mode := by
  unfold begin
  split_ifs with hBehind
  · simp [hBehind]
  · simp [hBehind, eq_comm]

theorem plain_singleton_iff : Plain [byte] ↔ kind byte = .plain := by
  constructor
  · intro hPlain
    simpa using hPlain.1
  · intro hKind
    refine ⟨by simp [hKind], ?_⟩
    intro other hMem
    rw [List.mem_singleton.mp hMem, Literal, hKind]
    decide

theorem Plain.ne_nil (h : Plain word) : word ≠ [] := by
  rintro rfl
  exact absurd h.1 (by simp)

theorem Plain.append (h : Plain start) (hByte : Literal byte) : Plain (start ++ [byte]) := by
  refine ⟨by rw [List.head?_append_of_ne_nil start h.ne_nil]; exact h.1, ?_⟩
  intro other hMem
  rcases List.mem_append.mp hMem with hBefore | hLast
  · exact h.2 other hBefore
  · rw [List.mem_singleton.mp hLast]
    exact hByte

theorem carried_newline_le (stage : Stage) :
    carried (.between stage.newline) ≤ carried (.between stage) := by
  cases stage <;> decide

/-- A byte adds at most one to the weight. -/
theorem weight_step (h : step mode byte = some (ended, next)) :
    weight ended + carried next ≤ carried mode + 1 := by
  cases mode with
  | between stage =>
      have hNewline := carried_newline_le stage
      cases hKind : kind byte <;> simp only [step, hKind, begin_eq_some, reduceCtorEq, Option.some.injEq,
        Prod.mk.injEq] at h
      case plain | singleQuote | doubleQuote =>
        obtain ⟨hStage, rfl, rfl⟩ := h
        simp [carried, hStage]
      all_goals
        obtain ⟨rfl, rfl⟩ := h
        simp only [carried, weight_nil] at hNewline ⊢
        omega
  | comment stage =>
      have hNewline := carried_newline_le stage
      simp only [step] at h
      split_ifs at h <;> obtain ⟨rfl, rfl⟩ := Prod.mk.inj (Option.some.inj h)
      all_goals
        simp only [carried, weight_nil] at hNewline ⊢
        omega
  | escapedStart stage =>
      simp only [step] at h
      split_ifs at h
      · obtain ⟨rfl, rfl⟩ := Prod.mk.inj (Option.some.inj h)
        simp [carried]
      · obtain ⟨hStage, rfl, rfl⟩ := begin_eq_some.mp h
        simp [carried, hStage]
  | word start =>
      cases hKind : kind byte <;> simp only [step, hKind, reduceCtorEq, Option.some.injEq,
        Prod.mk.injEq] at h
      all_goals
        obtain ⟨rfl, rfl⟩ := h
        simp [carried]
  | escaped start | single start =>
      simp only [step] at h
      split_ifs at h <;> obtain ⟨rfl, rfl⟩ := Prod.mk.inj (Option.some.inj h) <;> simp [carried]
  | double start | escapedDouble start =>
      cases hKind : kind byte <;> simp only [step, hKind, reduceCtorEq, Option.some.injEq,
        Prod.mk.injEq] at h
      all_goals
        obtain ⟨rfl, rfl⟩ := h
        simp [carried]

/-- It adds one only if it is in a word or separates two. -/
theorem tight_step (h : step mode byte = some (ended, next)) (hTight : Tight mode)
    (hWeight : weight ended + carried next = carried mode + 1) :
    Tight next ∧ ∀ word ∈ ended, Plain word := by
  cases mode with
  | between stage =>
      cases hKind : kind byte <;> simp only [step, hKind, begin_eq_some, reduceCtorEq, Option.some.injEq,
        Prod.mk.injEq] at h
      case plain =>
        obtain ⟨_, rfl, rfl⟩ := h
        exact ⟨plain_singleton_iff.mpr hKind, by simp⟩
      case newline =>
        obtain ⟨rfl, rfl⟩ := h
        exact ⟨trivial, by simp⟩
      case singleQuote | doubleQuote =>
        obtain ⟨hStage, rfl, rfl⟩ := h
        simp [carried, hStage] at hWeight
      all_goals
        obtain ⟨rfl, rfl⟩ := h
        simp [carried] at hWeight
  | word start =>
      have hLiteral : kind byte = .plain ∨ kind byte = .hash ∨ kind byte = .tilde → Literal byte := by
        rintro (hKind | hKind | hKind) <;> simp [Literal, hKind]
      cases hKind : kind byte <;> simp only [step, hKind, reduceCtorEq, Option.some.injEq,
        Prod.mk.injEq] at h
      case plain | hash | tilde =>
        obtain ⟨rfl, rfl⟩ := h
        exact ⟨Plain.append hTight (hLiteral (by simp [hKind])), by simp⟩
      case blank =>
        obtain ⟨rfl, rfl⟩ := h
        exact ⟨trivial, fun word hMem => List.mem_singleton.mp hMem ▸ hTight⟩
      all_goals
        obtain ⟨rfl, rfl⟩ := h
        simp [carried] at hWeight
  | comment stage | escapedStart stage => cases hTight
  | escaped start | single start | double start | escapedDouble start => cases hTight

theorem finish_spec (h : finish mode = some list) :
    weight list ≤ carried mode ∧ (Tight mode → ∀ word ∈ list, Plain word) := by
  cases mode with
  | between stage | comment stage =>
      cases h
      simp
  | word start =>
      cases h
      exact ⟨by simp [carried], fun hTight word hMem => List.mem_singleton.mp hMem ▸ hTight⟩
  | escapedStart stage => cases h
  | escaped start | single start | double start | escapedDouble start => cases h

/-- The words of a line are no longer than the line, and if they are as long there was
nothing in the line but plain words and what separates them. -/
theorem wordsFrom_spec {line : List UInt8} (h : wordsFrom mode line = some list) :
    weight list ≤ line.length + carried mode ∧
      (Tight mode → weight list = line.length + carried mode → ∀ word ∈ list, Plain word) := by
  induction line generalizing mode list with
  | nil =>
      obtain ⟨hLe, hPlain⟩ := finish_spec h
      exact ⟨by simpa using hLe, fun hTight _ => hPlain hTight⟩
  | cons byte rest ih =>
      simp only [wordsFrom] at h
      split at h
      · cases h
      · next ended next hStep =>
          obtain ⟨later, hLater, rfl⟩ := Option.map_eq_some_iff.mp h
          obtain ⟨hLe, hPlain⟩ := ih hLater
          have hByte := weight_step hStep
          rw [weight_append, List.length_cons]
          refine ⟨by omega, ?_⟩
          intro hTight hWeight word hMem
          obtain ⟨hNext, hEnded⟩ := tight_step hStep hTight (by omega)
          rcases List.mem_append.mp hMem with hFirst | hSecond
          · exact hEnded word hFirst
          · exact hPlain hNext (by omega) word hSecond

end Weight

section Unquoted

variable {word : List UInt8} {list : List (List UInt8)}

theorem unquoted_cons_cons (word other : List UInt8) (rest : List (List UInt8)) :
    unquoted (word :: other :: rest) = word ++ 32 :: unquoted (other :: rest) := by
  simp [unquoted, List.intercalate_cons_cons]

theorem weight_eq_length (hNe : list ≠ []) : weight list = (unquoted list).length + 1 := by
  induction list with
  | nil => exact absurd rfl hNe
  | cons word rest ih =>
      cases rest with
      | nil => simp [unquoted]
      | cons other rest =>
          rw [weight_cons, ih (List.cons_ne_nil _ _), unquoted_cons_cons, List.length_append,
            List.length_cons]
          omega

theorem mem_unquoted {byte : UInt8} (hMem : word ∈ list) (hByte : byte ∈ word) :
    byte ∈ unquoted list := by
  induction list with
  | nil => cases hMem
  | cons first rest ih =>
      cases rest with
      | nil =>
          rw [List.mem_singleton.mp hMem] at hByte
          simpa [unquoted] using hByte
      | cons other rest =>
          rw [unquoted_cons_cons]
          rcases List.mem_cons.mp hMem with rfl | hLater
          · exact List.mem_append_left _ hByte
          · exact List.mem_append_right _ (List.mem_cons_of_mem _ (ih hLater))

theorem not_mem_unquoted {byte : UInt8} (hBlank : byte ≠ 32) (h : ∀ word ∈ list, byte ∉ word) :
    byte ∉ unquoted list := by
  induction list with
  | nil => simp [unquoted]
  | cons first rest ih =>
      cases rest with
      | nil => simpa [unquoted] using h first (List.mem_singleton_self first)
      | cons other rest =>
          have hRest := ih fun word hMem => h word (List.mem_cons_of_mem _ hMem)
          rw [unquoted_cons_cons]
          simp [h first List.mem_cons_self, hBlank, hRest]

theorem wordsFrom_word {start after line : List UInt8} (h : ∀ byte ∈ after, Literal byte) :
    wordsFrom (.word start) (after ++ line) = wordsFrom (.word (start ++ after)) line := by
  induction after generalizing start with
  | nil => simp
  | cons byte rest ih =>
      have hStep : step (.word start) byte = some ([], .word (start ++ [byte])) := by
        have hByte := h byte List.mem_cons_self
        simp only [Literal, List.mem_cons, List.not_mem_nil, or_false] at hByte
        rcases hByte with hKind | hKind | hKind <;> simp [step, hKind]
      have hRest : wordsFrom (.word (start ++ [byte])) (rest ++ line) =
          wordsFrom (.word (start ++ [byte] ++ rest)) line :=
        ih fun other hMem => h other (List.mem_cons_of_mem _ hMem)
      rw [List.cons_append, wordsFrom, hStep]
      simp [hRest]

theorem wordsFrom_between {stage : Stage} (hStage : stage ≠ .behind) (h : Plain word)
    (line : List UInt8) : wordsFrom (.between stage) (word ++ line) = wordsFrom (.word word) line := by
  cases word with
  | nil => exact absurd rfl h.ne_nil
  | cons byte rest =>
      have hKind : kind byte = .plain := by simpa using h.1
      have hStep : step (.between stage) byte = some ([], .word [byte]) := by
        simp [step, hKind, begin, hStage]
      have hRest : wordsFrom (.word [byte]) (rest ++ line) = wordsFrom (.word ([byte] ++ rest)) line :=
        wordsFrom_word fun other hMem => h.2 other (List.mem_cons_of_mem _ hMem)
      rw [List.cons_append, wordsFrom, hStep]
      simp [hRest]

theorem wordsFrom_unquoted {stage : Stage} (hStage : stage ≠ .behind) (h : ∀ word ∈ list, Plain word) :
    wordsFrom (.between stage) (unquoted list) = some list := by
  induction list generalizing stage with
  | nil => rfl
  | cons word rest ih =>
      have hWord := h word List.mem_cons_self
      cases rest with
      | nil =>
          have hLast := wordsFrom_between hStage hWord []
          rw [List.append_nil] at hLast
          simp [unquoted, hLast, wordsFrom, finish]
      | cons other rest =>
          have hRest : wordsFrom (.between .within) (unquoted (other :: rest)) = some (other :: rest) :=
            ih (by decide) fun later hMem => h later (List.mem_cons_of_mem _ hMem)
          have hStep : step (.word word) 32 = some ([word], .between .within) := rfl
          rw [unquoted_cons_cons, wordsFrom_between hStage hWord, wordsFrom, hStep]
          simp [hRest]

/-- Words given to the shell without quotes come back exactly if each is plain and none
ends the line before the rest. -/
theorem words_unquoted_iff : words (CString.read (unquoted list)) = some list ↔
    ∀ word ∈ list, Plain word ∧ 0 ∉ word := by
  constructor
  · intro hWords word hMem
    obtain ⟨hLe, hPlain⟩ := wordsFrom_spec hWords
    have hWeight := weight_eq_length (List.ne_nil_of_mem hMem)
    have hRead := (CString.read_isPrefix (unquoted list)).length_le
    have hCarried : carried (.between .before) = 1 := rfl
    refine ⟨hPlain trivial (by omega) word hMem, ?_⟩
    intro hZero
    have hLt := CString.length_read_lt (mem_unquoted hMem hZero)
    omega
  · intro hPlain
    have hNone : 0 ∉ unquoted list :=
      not_mem_unquoted (by decide) fun word hMem => (hPlain word hMem).2
    rw [CString.read_of_not_mem hNone]
    exact wordsFrom_unquoted (by decide) fun word hMem => (hPlain word hMem).1

end Unquoted

end Shell
