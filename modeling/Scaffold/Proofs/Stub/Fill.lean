import Scaffold.Proofs.Text.Pieces
import Scaffold.Stub.Builtin

/-! Filling in a stub, row by row. A row without any spelling of a slot is kept; in a row with one
slot the value takes its place, whatever else stands there as long as it has no braces of its
own. -/

namespace Scaffold.Stub
open Text Naming

namespace Slot

variable {slot : Slot} {front back row value : Text}

/-- The slot as the built-in stubs spell it. -/
def mark (slot : Slot) : Text :=
  braced (' ' :: slot.word ++ [' '])

theorem spellings_eq (slot : Slot) :
    slot.spellings = [slot.dummy, slot.mark, braced slot.word] := rfl

theorem fill_eq (slot : Slot) (value stub : Text) :
    slot.fill value stub =
      replaceAll (braced slot.word) value (replaceAll slot.mark value
        (replaceAll slot.dummy value stub)) := rfl

theorem spelling_sound (slot : Slot) :
    ∀ spelling ∈ slot.spellings, spelling ≠ [] ∧ '\n' ∉ spelling := by
  cases slot <;> decide

theorem fill_ofRows (slot : Slot) (value : Text) (rows : List Text) :
    slot.fill value (ofRows rows) = ofRows (rows.map (slot.fill value)) := by
  have sound := slot.spelling_sound
  simp only [spellings_eq, List.forall_mem_cons] at sound
  obtain ⟨dummy, mark, word, -⟩ := sound
  rw [fill_eq, replaceAll_ofRows dummy.1 dummy.2, replaceAll_ofRows mark.1 mark.2,
    replaceAll_ofRows word.1 word.2, List.map_map, List.map_map]
  rfl

theorem fill_append (absent : '\x7b' ∉ front) (slot : Slot) {stub : Text}
    (dummy : ¬ slot.dummy <:+: front ++ stub) (value : Text) :
    slot.fill value (front ++ stub) = front ++ slot.fill value stub := by
  have later : ¬ slot.dummy <:+: stub := fun found =>
    dummy (List.infix_append_of_infix_right found)
  rw [fill_eq, fill_eq, replaceAll_eq_self dummy, replaceAll_eq_self later,
    replaceAll_append_of_not_mem rfl absent, replaceAll_append_of_not_mem rfl absent]

/-- The row does not have the slot. -/
def Absent (slot : Slot) (row : Text) : Prop :=
  ∀ spelling ∈ slot.spellings, ¬ spelling <:+: row

instance (slot : Slot) (row : Text) : Decidable (slot.Absent row) :=
  inferInstanceAs (Decidable (∀ spelling ∈ slot.spellings, ¬ spelling <:+: row))

theorem fill_of_absent (h : slot.Absent row) (value : Text) : slot.fill value row = row := by
  simp only [Absent, spellings_eq, List.forall_mem_cons] at h
  obtain ⟨dummy, mark, word, -⟩ := h
  rw [fill_eq, replaceAll_eq_self dummy, replaceAll_eq_self mark, replaceAll_eq_self word]

theorem fill_mark (unbraced : '\x7b' ∉ front ++ (value ++ back))
    (dummy : ¬ slot.dummy <:+: front ++ (slot.mark ++ back)) :
    slot.fill value (front ++ (slot.mark ++ back)) = front ++ (value ++ back) := by
  simp only [List.mem_append, not_or] at unbraced
  obtain ⟨before, inside, behind⟩ := unbraced
  have filled : slot.mark ≠ [] := by simp [mark, braced]
  have whole : '\x7b' ∉ front ++ (value ++ back) := by simp [before, inside, behind]
  have rest : ∀ word : Text, ¬ braced word <:+: front ++ (value ++ back) := fun word found =>
    whole (found.subset (by simp [braced]))
  have tail : ¬ slot.mark <:+: back := fun found =>
    behind (found.subset (by simp [mark, braced]))
  rw [fill_eq, replaceAll_eq_self dummy, replaceAll_append_of_not_mem rfl before,
    replaceAll_needle filled, replaceAll_eq_self tail, replaceAll_eq_self (rest _)]

end Slot

variable {name root row front back : Text}

/-- None of the dummy names. -/
def Undummied (t : Text) : Prop :=
  ∀ slot : Slot, ¬ slot.dummy <:+: t

theorem fillAll_ofRows (name root : Text) (rows : List Text) :
    fillAll name root (ofRows rows) = ofRows (rows.map (fillAll name root)) := by
  rw [fillAll, fillNamespaces, fillClass, Slot.fill_ofRows, Slot.fill_ofRows, Slot.fill_ofRows,
    List.map_map, List.map_map]
  rfl

/-- A row without slots. -/
def Unslotted (row : Text) : Prop :=
  ∀ slot : Slot, slot.Absent row

instance : DecidablePred Unslotted := fun row =>
  decidable_of_iff (Slot.space.Absent row ∧ Slot.rootSpace.Absent row ∧ Slot.className.Absent row)
    ⟨fun ⟨space, root, base⟩ slot => by cases slot <;> assumption,
      fun h => ⟨h .space, h .rootSpace, h .className⟩⟩

theorem fillAll_of_unslotted (h : Unslotted row) : fillAll name root row = row := by
  rw [fillAll, fillNamespaces, fillClass, Slot.fill_of_absent (h .space),
    Slot.fill_of_absent (h .rootSpace), Slot.fill_of_absent (h .className)]

/-- All spellings, in the order in which they are filled. -/
def spellings : List Text :=
  Slot.space.spellings ++ (Slot.rootSpace.spellings ++ Slot.className.spellings)

theorem discernible_spellings : Discernible spellings :=
  ⟨by decide, by decide, by decide +kernel⟩

/-- What is put for each of the spellings. -/
def fillings (name root : Text) : List (Text × Text) :=
  Slot.space.spellings.map (·, namespaceOf name) ++
    (Slot.rootSpace.spellings.map (·, root) ++ Slot.className.spellings.map (·, lastSegment name))

theorem needles_fillings (name root : Text) : (fillings name root).map Prod.fst = spellings := rfl

theorem fillAll_eq_replaceInTurn (name root stub : Text) :
    fillAll name root stub = replaceInTurn (fillings name root) stub := rfl

theorem fillAll_framed (frames : Frames spellings front back) (t : Text) :
    fillAll name root (front ++ (t ++ back)) = front ++ (fillAll name root t ++ back) := by
  rw [← needles_fillings name root] at frames
  rw [fillAll_eq_replaceInTurn, fillAll_eq_replaceInTurn]
  exact replaceInTurn_framed frames t

theorem fillAll_space_mark
    (kept : ∀ spelling ∈ spellings.drop 2, ¬ spelling <:+: namespaceOf name) :
    fillAll name root Slot.space.mark = namespaceOf name := by
  have split : fillings name root = (Slot.space.dummy, namespaceOf name) ::
      (Slot.space.mark, namespaceOf name) :: (fillings name root).drop 2 := rfl
  have bare : ¬ Slot.space.dummy <:+: Slot.space.mark := by decide
  rw [fillAll_eq_replaceInTurn, split, replaceInTurn_cons, replaceAll_eq_self bare,
    replaceInTurn_cons, replaceAll_self (by decide)]
  exact replaceInTurn_eq_self kept

theorem fillAll_class_mark (kept : ¬ braced Slot.className.word <:+: lastSegment name) :
    fillAll name root Slot.className.mark = lastSegment name := by
  have split : fillings name root = (fillings name root).take 7 ++
      [(Slot.className.mark, lastSegment name),
        (braced Slot.className.word, lastSegment name)] := rfl
  have absent : ∀ n ∈ ((fillings name root).take 7).map Prod.fst, ¬ n <:+: Slot.className.mark := by
    rw [List.map_take, needles_fillings]
    decide +kernel
  rw [fillAll_eq_replaceInTurn, split, replaceInTurn_append, replaceInTurn_eq_self absent,
    replaceInTurn_cons, replaceAll_self (by decide), replaceInTurn_cons, replaceAll_eq_self kept]
  rfl

end Scaffold.Stub
