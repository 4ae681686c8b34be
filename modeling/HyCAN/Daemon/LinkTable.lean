import HyCAN.Text.CString
import HyCAN.Text.Decimal
import Mathlib.Data.List.Nodup

/-! The kernel's network links, and the requests on them that the daemon makes
through libnl. A refused request changes nothing, and an accepted one exactly
what it asks for. -/
namespace HyCAN

/-- The bytes of a text that the source has as an ASCII literal. -/
def ascii (text : String) : List UInt8 :=
  text.toList.map fun c => UInt8.ofNat c.toNat

/-- `IFNAMSIZ`, the terminating NUL included. -/
def ifNameSize : Nat := 16

inductive LinkKind where
  | can
  | vcan
  | other
  deriving DecidableEq

structure Link where
  index : Nat
  name : List UInt8
  kind : LinkKind
  /-- `IFF_UP` -/
  up : Bool
  bitrate : UInt32
  deriving DecidableEq

/-- What the kernel accepts as the name of a link: 1 to 15 bytes, not `.` or `..`,
and without NUL, slash, colon and white space. -/
def ValidLinkName (name : List UInt8) : Prop :=
  name ≠ [] ∧ name.length < ifNameSize ∧ name ≠ ascii "." ∧ name ≠ ascii ".." ∧
    ∀ byte ∈ name, byte ∉ ([0, 47, 58, 32, 9, 10, 11, 12, 13, 160] : List UInt8)

instance (name : List UInt8) : Decidable (ValidLinkName name) := inferInstanceAs (Decidable (_ ∧ _))

/-- The name by which an `ioctl` looks a link up. A colon and what is behind it would name
an alias; a name that does not fit into the field is left as it is, and is that of no link. -/
def ioctlName (name : List UInt8) : List UInt8 :=
  if name.length < ifNameSize then name.takeWhile (· ≠ 58) else name

theorem ioctlName_of_not_mem {name : List UInt8} (hColon : 58 ∉ name) : ioctlName name = name := by
  unfold ioctlName
  split_ifs
  · rw [List.takeWhile_eq_self_iff]
    intro byte hMem
    have hNe : byte ≠ 58 := fun hEq => hColon (hEq ▸ hMem)
    simpa using hNe
  · rfl

theorem ioctlName_of_valid {name : List UInt8} (hValid : ValidLinkName name) : ioctlName name = name :=
  ioctlName_of_not_mem fun hMem => hValid.2.2.2.2 58 hMem (by decide)

/-- No two links share their index or their name. -/
structure LinkTable where
  links : List Link
  indexNodup : (links.map Link.index).Nodup
  nameNodup : (links.map Link.name).Nodup
  nameValid : ∀ link ∈ links, ValidLinkName link.name

inductive LinkChange where
  | state (up : Bool)
  | bitrate (rate : UInt32)
  deriving DecidableEq

def LinkChange.apply : LinkChange → Link → Link
  | .state up, link => { link with up }
  | .bitrate rate, link => { link with bitrate := rate }

/-- The libnl code of the error that the kernel itself has for a change: the
bitrate of a link that is up, or of one that is no CAN link, cannot be set. -/
def LinkChange.refusedOn : LinkChange → Link → Option Nat
  | .state _, _ => none
  | .bitrate _, link => if link.kind ≠ .can then some 10 else if link.up then some 25 else none

@[simp] theorem LinkChange.apply_index (change : LinkChange) (link : Link) :
    (change.apply link).index = link.index := by
  cases change <;> rfl

@[simp] theorem LinkChange.apply_name (change : LinkChange) (link : Link) :
    (change.apply link).name = link.name := by
  cases change <;> rfl

@[simp] theorem LinkChange.apply_kind (change : LinkChange) (link : Link) :
    (change.apply link).kind = link.kind := by
  cases change <;> rfl

/-- What the kernel does with a request to create a link: refuse it with a libnl
code, or accept it, with the index and, for a template name, the number it picks. -/
inductive AddOutcome where
  | refused (code : Nat)
  | accepted (index number : Nat)

/-- The name that a new vcan link gets. Without one, or with a `%d` in it, the kernel
puts a number in; it knows no other use of `%`. -/
def assignedName (name : List UInt8) (number : Nat) : Option (List UInt8) :=
  let template := if name = [] then ascii "vcan%d" else name
  if ¬ValidLinkName template then none
  else match template.dropWhile (· ≠ 37) with
    | [] => some template
    | _ :: rest =>
      match rest with
      | 100 :: back =>
        if 37 ∈ back then none
        else
          some ((template.takeWhile (· ≠ 37) ++ Decimal.digits number ++ back).take (ifNameSize - 1))
      | _ => none

theorem assignedName_of_not_mem {name : List UInt8} (hValid : ValidLinkName name) (hPlain : 37 ∉ name)
    (number : Nat) : assignedName name number = some name := by
  have hDrop : name.dropWhile (· ≠ 37) = [] := by
    rw [List.dropWhile_eq_nil_iff]
    intro byte hMem
    have hNe : byte ≠ 37 := fun hEq => hPlain (hEq ▸ hMem)
    simpa using hNe
  simp only [assignedName, hValid.1, hValid, hDrop, not_true_eq_false, ↓reduceIte]

theorem valid_of_assignedName {name assigned : List UInt8} {number : Nat} (hNe : name ≠ [])
    (h : assignedName name number = some assigned) : ValidLinkName name := by
  by_contra hValid
  simp [assignedName, hNe, hValid] at h

/-- Names of new links have no `%`. -/
theorem not_mem_of_assignedName {name assigned : List UInt8} {number : Nat}
    (h : assignedName name number = some assigned) : 37 ∉ assigned := by
  unfold assignedName at h
  dsimp only at h
  generalize (if name = [] then ascii "vcan%d" else name) = template at h
  have hFront : 37 ∉ template.takeWhile (· ≠ 37) := by
    intro hMem
    simpa using List.mem_takeWhile_imp hMem
  have hDigits : 37 ∉ Decimal.digits number := by
    intro hMem
    exact absurd (Decimal.mem_digits hMem).1 (by decide)
  split_ifs at h
  cases hDrop : template.dropWhile (· ≠ 37) with
  | nil =>
      rw [hDrop, Option.some.injEq] at h
      rw [List.dropWhile_eq_nil_iff] at hDrop
      intro hMem
      simpa using hDrop 37 (h ▸ hMem)
  | cons percent rest =>
      rw [hDrop] at h
      dsimp only at h
      split at h
      · split_ifs at h with hBack
        rw [Option.some.injEq] at h
        intro hMem
        rw [← h] at hMem
        rcases List.mem_append.mp (List.mem_of_mem_take hMem) with hStart | hEnd
        · rcases List.mem_append.mp hStart with hBefore | hNumber
          · exact hFront hBefore
          · exact hDigits hNumber
        · exact hBack hEnd
      · cases h

namespace LinkTable

def byName (table : LinkTable) (name : List UInt8) : Option Link :=
  table.links.find? fun link => link.name = name

def byIndex (table : LinkTable) (index : Nat) : Option Link :=
  table.links.find? fun link => link.index = index

def changeAt (index : Nat) (change : LinkChange) (link : Link) : Link :=
  if link.index = index then change.apply link else link

@[simp] theorem changeAt_index (index : Nat) (change : LinkChange) (link : Link) :
    (changeAt index change link).index = link.index := by
  unfold changeAt
  split <;> simp

@[simp] theorem changeAt_name (index : Nat) (change : LinkChange) (link : Link) :
    (changeAt index change link).name = link.name := by
  unfold changeAt
  split <;> simp

def change (table : LinkTable) (index : Nat) (change : LinkChange) : LinkTable where
  links := table.links.map (changeAt index change)
  indexNodup := by simpa [List.map_map, Function.comp_def] using table.indexNodup
  nameNodup := by simpa [List.map_map, Function.comp_def] using table.nameNodup
  nameValid := by
    intro link hMem
    obtain ⟨old, hOld, rfl⟩ := List.mem_map.mp hMem
    rw [changeAt_name]
    exact table.nameValid old hOld

/-- `rtnl_link_change` on a link object from the cache. The kernel finds the link
by the index of the object; `refusal` is any other reason to refuse. -/
def rtnlLinkChange (table : LinkTable) (link : Link) (change : LinkChange)
    (refusal : Option Nat) : Int × LinkTable :=
  match refusal with
  | some code => (-(code + 1), table)
  | none => match table.byIndex link.index with
    | none => (-31, table)
    | some target => match change.refusedOn target with
      | some code => (-code, table)
      | none => (0, table.change link.index change)

def add (table : LinkTable) (link : Link) (hIndex : link.index ∉ table.links.map Link.index)
    (hName : link.name ∉ table.links.map Link.name) (hValid : ValidLinkName link.name) :
    LinkTable where
  links := table.links ++ [link]
  indexNodup := by
    rw [List.map_append, List.nodup_append]
    refine ⟨table.indexNodup, by simp, ?_⟩
    intro index hMem other hOther hSame
    simp only [List.map_cons, List.map_nil, List.mem_singleton] at hOther
    exact hIndex (hOther ▸ hSame ▸ hMem)
  nameNodup := by
    rw [List.map_append, List.nodup_append]
    refine ⟨table.nameNodup, by simp, ?_⟩
    intro name hMem other hOther hSame
    simp only [List.map_cons, List.map_nil, List.mem_singleton] at hOther
    exact hName (hOther ▸ hSame ▸ hMem)
  nameValid := by
    intro other hMem
    rcases List.mem_append.mp hMem with hOld | hNew
    · exact table.nameValid other hOld
    · exact List.mem_singleton.mp hNew ▸ hValid

/-- `rtnl_link_add` of a vcan link with `NLM_F_CREATE`. libnl keeps 15 bytes of
the name. Without `NLM_F_EXCL` the request does nothing to a link that has the
name already. -/
def rtnlLinkAdd (table : LinkTable) (name : List UInt8) (outcome : AddOutcome) : Int × LinkTable :=
  let name := name.take (ifNameSize - 1)
  match outcome with
  | .refused code => (-(code + 1), table)
  | .accepted index number =>
    if name ∈ table.links.map Link.name then (0, table)
    else match assignedName name number with
      | none => (-7, table)
      | some assigned =>
        if h : index ∉ table.links.map Link.index ∧ assigned ∉ table.links.map Link.name ∧
            ValidLinkName assigned then
          (0, table.add ⟨index, assigned, .vcan, false, 0⟩ h.1 h.2.1 h.2.2)
        else (-7, table)

/-- A request to create a link adds at most one, and that a new vcan link by a name that
the kernel has assigned. -/
theorem links_rtnlLinkAdd (table : LinkTable) (name : List UInt8) (outcome : AddOutcome) :
    (table.rtnlLinkAdd name outcome).2.links = table.links ∨
      ∃ link, link.kind = .vcan ∧ (table.rtnlLinkAdd name outcome).2.links = table.links ++ [link] ∧
        link.name ∉ table.links.map Link.name ∧
        ∃ number, assignedName (name.take (ifNameSize - 1)) number = some link.name := by
  unfold rtnlLinkAdd
  cases outcome with
  | refused => exact .inl rfl
  | accepted index number =>
      dsimp only
      generalize hAssigned : assignedName (name.take (ifNameSize - 1)) number = picked
      split_ifs with hTaken
      · exact .inl rfl
      · cases picked with
        | none => exact .inl rfl
        | some assigned =>
            dsimp only
            split_ifs with hFree
            · exact .inr ⟨_, rfl, rfl, hFree.2.1, number, hAssigned⟩
            · exact .inl rfl

/-- A kernel without links. -/
def empty : LinkTable where
  links := []
  indexNodup := List.nodup_nil
  nameNodup := List.nodup_nil
  nameValid := by simp

/-- A kernel with one link. -/
def single (link : Link) (hValid : ValidLinkName link.name) : LinkTable where
  links := [link]
  indexNodup := List.nodup_singleton _
  nameNodup := List.nodup_singleton _
  nameValid := by simpa using hValid

section Lookup

variable {table : LinkTable} {link other : Link} {name : List UInt8} {index : Nat}

theorem byName_eq_some_iff : table.byName name = some link ↔ link ∈ table.links ∧ link.name = name := by
  constructor
  · intro hFind
    exact ⟨List.mem_of_find?_eq_some hFind, by simpa using List.find?_some hFind⟩
  · rintro ⟨hMem, hName⟩
    cases hFind : table.byName name with
    | none =>
        have hNone := List.find?_eq_none.mp hFind link hMem
        simp [hName] at hNone
    | some found =>
        have hFound := List.mem_of_find?_eq_some hFind
        have hSame : found.name = link.name := by
          rw [hName]
          simpa using List.find?_some hFind
        rw [List.inj_on_of_nodup_map table.nameNodup hFound hMem hSame]

theorem byName_eq_none (h : name ∉ table.links.map Link.name) : table.byName name = none := by
  cases hFind : table.byName name with
  | none => rfl
  | some link =>
      obtain ⟨hMem, hName⟩ := byName_eq_some_iff.mp hFind
      exact absurd (List.mem_map.mpr ⟨link, hMem, hName⟩) h

theorem byIndex_of_mem (hMem : link ∈ table.links) : table.byIndex link.index = some link := by
  cases hFind : table.byIndex link.index with
  | none =>
      have hNone := List.find?_eq_none.mp hFind link hMem
      simp at hNone
  | some found =>
      have hFound := List.mem_of_find?_eq_some hFind
      have hSame : found.index = link.index := by simpa using List.find?_some hFind
      rw [List.inj_on_of_nodup_map table.indexNodup hFound hMem hSame]

/-- Links with the same index are the same link. -/
theorem eq_of_index (hMem : link ∈ table.links) (hOther : other ∈ table.links)
    (hIndex : link.index = other.index) : link = other :=
  List.inj_on_of_nodup_map table.indexNodup hMem hOther hIndex

theorem links_change (table : LinkTable) (index : Nat) (c : LinkChange) :
    (table.change index c).links = table.links.map (changeAt index c) := rfl

theorem eq_of_links {first second : LinkTable} (h : first.links = second.links) : first = second := by
  cases first
  cases second
  simpa using h

/-- A change that changes nothing about the link it is for. -/
theorem change_eq_self {c : LinkChange} (h : table.byName name = some link) (hSame : c.apply link = link) :
    table.change link.index c = table := by
  obtain ⟨hMem, _⟩ := byName_eq_some_iff.mp h
  apply eq_of_links
  rw [links_change, List.map_congr_left (g := id), List.map_id]
  intro other hOther
  unfold changeAt
  split_ifs with hIndex
  · rw [eq_of_index hOther hMem hIndex]
    exact hSame
  · rfl

/-- The changed link, under its own name. -/
theorem byName_change_self {c : LinkChange} (h : table.byName name = some link) :
    (table.change link.index c).byName name = some (c.apply link) := by
  obtain ⟨hMem, hName⟩ := byName_eq_some_iff.mp h
  refine byName_eq_some_iff.mpr ⟨?_, by simpa using hName⟩
  rw [links_change]
  exact List.mem_map.mpr ⟨link, hMem, by simp [changeAt]⟩

/-- A change leaves the links of all other names as they are. -/
theorem mem_change_iff {c : LinkChange} (h : table.byName name = some link) (hNe : other.name ≠ name) :
    other ∈ (table.change link.index c).links ↔ other ∈ table.links := by
  obtain ⟨hMem, hName⟩ := byName_eq_some_iff.mp h
  rw [links_change, List.mem_map]
  constructor
  · rintro ⟨old, hOld, rfl⟩
    rw [changeAt_name] at hNe
    have hIndex : old.index ≠ link.index :=
      fun hSame => hNe (eq_of_index hOld hMem hSame ▸ hName)
    simpa [changeAt, hIndex] using hOld
  · intro hOther
    have hIndex : other.index ≠ link.index :=
      fun hSame => hNe (eq_of_index hOther hMem hSame ▸ hName)
    exact ⟨other, hOther, by simp [changeAt, hIndex]⟩

end Lookup

/-- One table comes from another by changes of the link of one name. -/
inductive ChangedAt (name : List UInt8) : LinkTable → LinkTable → Prop where
  | refl (table : LinkTable) : ChangedAt name table table
  | change {table after : LinkTable} {link : Link} {c : LinkChange}
      (hLink : table.byName name = some link)
      (hRest : ChangedAt name (table.change link.index c) after) : ChangedAt name table after

theorem ChangedAt.trans {name : List UInt8} {first second third : LinkTable}
    (h : ChangedAt name first second) (hNext : ChangedAt name second third) :
    ChangedAt name first third := by
  induction h with
  | refl => exact hNext
  | change hLink _ ih => exact .change hLink (ih hNext)

theorem ChangedAt.mem_iff {name : List UInt8} {table after : LinkTable} {other : Link}
    (h : ChangedAt name table after) (hNe : other.name ≠ name) :
    other ∈ after.links ↔ other ∈ table.links := by
  induction h with
  | refl => rfl
  | change hLink _ ih => rw [ih, mem_change_iff hLink hNe]

/-- The link of that name stays, and so does its kind. -/
theorem ChangedAt.kind {name : List UInt8} {table after : LinkTable} {link : Link}
    (h : ChangedAt name table after) (hLink : table.byName name = some link) :
    ∃ changed, after.byName name = some changed ∧ changed.kind = link.kind := by
  induction h generalizing link with
  | refl => exact ⟨link, hLink, rfl⟩
  | @change table _ found c hFound _ ih =>
      have hSame : found = link := Option.some.inj (hFound.symm.trans hLink)
      obtain ⟨changed, hChanged, hKind⟩ := ih (byName_change_self hFound)
      exact ⟨changed, hChanged, by rw [hKind, LinkChange.apply_kind, hSame]⟩

theorem ChangedAt.eq_of_none {name : List UInt8} {table after : LinkTable}
    (h : ChangedAt name table after) (hNone : table.byName name = none) : after = table := by
  cases h with
  | refl => rfl
  | change hLink => simp [hNone] at hLink

end LinkTable
end HyCAN
