import Scaffold.Proofs.Text.Line

/-! Edits by offset. Two edits are given at the offsets that they have in the text before either,
and the one further back is made first, so that the other is still in its place. -/

namespace Scaffold.Text

variable {t front middle back part value : Text} {mark c : Char} {offset : Nat}

/-- A part put in at an offset. -/
def put (offset : Nat) (part t : Text) : Text :=
  t.take offset ++ part ++ t.drop offset

/-- The one character at an offset exchanged for a text. -/
def exchange (offset : Nat) (value t : Text) : Text :=
  t.take offset ++ value ++ t.drop (offset + 1)

def spliced (place : Nat) (part : Text) (offset : Nat) (value t : Text) : Text :=
  if place ≤ offset then put place part (exchange offset value t)
  else exchange offset value (put place part t)

theorem put_length (front part back : Text) :
    put front.length part (front ++ back) = front ++ part ++ back := by
  simp [put]

theorem exchange_length (front value back : Text) (c : Char) :
    exchange front.length value (front ++ c :: back) = front ++ value ++ back := by
  simp [exchange]

theorem spliced_behind (front part middle value back : Text) (c : Char) :
    spliced front.length part (front ++ middle).length value (front ++ middle ++ c :: back) =
      front ++ part ++ middle ++ value ++ back := by
  have order : front.length ≤ (front ++ middle).length := by simp
  rw [spliced, if_pos order, exchange_length, List.append_assoc, List.append_assoc, put_length]
  simp

theorem spliced_ahead (front part middle value back : Text) (c : Char) :
    spliced (front ++ c :: middle).length part front.length value (front ++ c :: middle ++ back) =
      front ++ value ++ middle ++ part ++ back := by
  have order : ¬ (front ++ c :: middle).length ≤ front.length := by simp
  rw [spliced, if_neg order, put_length, List.append_assoc, List.append_assoc,
    List.cons_append, exchange_length]
  simp

/-- The mark stands at the offset and nowhere behind it. -/
structure LastAt (mark : Char) (t : Text) (offset : Nat) : Prop where
  here : t[offset]? = some mark
  last : ∀ later, offset < later → t[later]? ≠ some mark

theorem lastAt_append (absent : mark ∉ back) :
    LastAt mark (front ++ mark :: back) front.length := by
  refine ⟨by simp, fun later behind found => absent ?_⟩
  rw [List.getElem?_append_right (by omega)] at found
  obtain ⟨further, eq⟩ : ∃ further, later - front.length = further + 1 :=
    ⟨later - front.length - 1, by omega⟩
  rw [eq, List.getElem?_cons_succ] at found
  exact List.mem_of_getElem? found

/-- The first line that holds the word ends at the offset, in front of its line ending. -/
def FirstLineEnds (word t : Text) (offset : Nat) : Prop :=
  ∃ passed line rest, lines t = passed ++ line :: rest ∧ word <:+: line.body ∧
    (∀ earlier ∈ passed, ¬ word <:+: earlier.body) ∧
    offset = (joined passed ++ line.body).length

theorem firstLineEnds_of_first? {word : Text} {cut : LineCut}
    (h : LineCut.first? (occurs word) (lines t) = some cut) :
    FirstLineEnds word t (cut.before ++ cut.line).length := by
  obtain ⟨passed, line, rest, split, here, earlier, rfl⟩ := LineCut.exists_of_first? h
  refine ⟨passed, line, rest, split, occurs_iff.1 here, fun other mem found => ?_, rfl⟩
  have missed := earlier other mem
  simp [occurs_iff.2 found] at missed

end Scaffold.Text
