import Scaffold.Proofs.Text.Line

/-! Lines of a text that was put together. Lines in front stay as they are, and a part put in
between two lines keeps its own lines, as long as no carriage return meets a line feed where the
texts are joined. -/

namespace Scaffold

namespace Line

/-- The lines with another ending behind the last one. -/
def endedBy (ending : Ending) : List Line → List Line
  | [] => []
  | [line] => [⟨line.body, ending⟩]
  | line :: next :: rest => line :: endedBy ending (next :: rest)

variable {ending : Ending} {line : Line} {ls : List Line}

theorem endedBy_cons (more : ls ≠ []) :
    endedBy ending (line :: ls) = line :: endedBy ending ls := by
  obtain ⟨next, rest, rfl⟩ := List.exists_cons_of_ne_nil more
  rfl

theorem endedBy_bodies (ending : Ending) (ls : List Line) :
    (endedBy ending ls).map body = ls.map body := by
  fun_induction endedBy ending ls with
  | case1 => rfl
  | case2 => rfl
  | case3 line next rest ih =>
    rw [List.map_cons, ih]
    rfl

theorem endedBy_endings (filled : ls ≠ []) :
    (endedBy ending ls).map Line.ending = (ls.map Line.ending).dropLast ++ [ending] := by
  fun_induction endedBy ending ls with
  | case1 => exact absurd rfl filled
  | case2 => rfl
  | case3 line next rest ih =>
    rw [List.map_cons, ih (by simp)]
    rfl

end Line

open Text Line

theorem Text.joined_append (front rest : List Line) :
    joined (front ++ rest) = joined front ++ joined rest :=
  List.flatMap_append

theorem Text.getLast?_joined_cons {ls : List Line} {c : Char}
    (last : (joined ls).getLast? = some c) (line : Line) :
    (joined (line :: ls)).getLast? = some c := by
  rw [joined_cons, List.getLast?_append, last, Option.some_or]

theorem Line.text_ne_nil {line : Line} (inner : line.ending ≠ .last) : line.text ≠ [] := by
  simp [Line.text, Ending.text_ne_nil inner]

namespace Proper

variable {passed rest ls : List Line} {line : Line} {body t : Text} {ending : Ending}

theorem ne_nil (proper : Proper ls) : ls ≠ [] := by
  cases proper <;> simp

theorem with_body (proper : Proper (line :: rest)) (whole : Unbroken body) :
    Proper (⟨body, line.ending⟩ :: rest) := by
  cases proper with
  | last _ => exact .last whole
  | cons _ inner lone others => exact .cons whole inner lone others

theorem lone_return (proper : Proper (line :: rest)) (more : rest ≠ [])
    (cr : line.ending = .cr) : (joined rest).head? ≠ some '\n' := by
  cases proper with
  | last _ => exact absurd rfl more
  | cons _ _ lone _ => exact lone cr

theorem head?_ending_iff (proper : Proper (line :: rest)) :
    (line.ending.text ++ joined rest).head? = some '\n' ↔ line.ending = .lf := by
  cases proper with
  | last _ => simp [Ending.text]
  | @cons _ ending _ _ inner _ _ => cases ending <;> simp_all [Ending.text]

theorem lines_joined_append (proper : Proper (passed ++ line :: rest))
    (apart : (joined passed).getLast? = some '\r' → t.head? ≠ some '\n') :
    lines (joined passed ++ t) = passed ++ lines t := by
  induction passed with
  | nil => rfl
  | cons first passed ih =>
    have more : passed ++ line :: rest ≠ [] := by simp
    obtain ⟨inner, others⟩ := proper.inner_and_tail more
    have whole := proper.unbroken List.mem_cons_self
    have lone : first.ending = .cr → (joined passed ++ t).head? ≠ some '\n' := by
      intro cr
      cases passed with
      | nil => exact apart (by simp [cr, Line.text, Ending.text])
      | cons second passed =>
        -- the second line has an ending, so the text behind the return begins as it did
        have filled := text_ne_nil (others.inner_and_tail (by simp)).1
        simpa [filled] using proper.lone_return more cr
    have tail : (joined passed).getLast? = some '\r' → t.head? ≠ some '\n' :=
      fun last => apart (getLast?_joined_cons last first)
    rw [joined_cons, Line.text, List.append_assoc, List.append_assoc,
      lines_append whole inner lone, ih others tail, List.cons_append]

theorem exists_return (proper : Proper (passed ++ line :: rest))
    (return_ : (joined passed).getLast? = some '\r') :
    ∃ front body, passed = front ++ [⟨body, .cr⟩] := by
  rcases List.eq_nil_or_concat passed with rfl | ⟨front, earlier, rfl⟩
  · simp at return_
  have last : earlier ∈ front.concat earlier := by simp
  have inner : earlier.ending ≠ .last := proper.inner_of_append last
  obtain ⟨body, ending⟩ := earlier
  refine ⟨front, body, ?_⟩
  cases ending <;> simp_all [joined_append, Line.text, Ending.text]

theorem lines_joined_return {front : List Line} (proper : Proper (front ++ ⟨body, .cr⟩ :: rest))
    (t : Text) :
    lines (joined (front ++ [⟨body, .cr⟩]) ++ '\n' :: t) = front ++ ⟨body, .crlf⟩ :: lines t := by
  have inside : Line.mk body .cr ∈ front ++ ⟨body, .cr⟩ :: rest := by simp
  have whole : Unbroken body := proper.unbroken inside
  have shape : joined (front ++ [⟨body, .cr⟩]) ++ '\n' :: t =
      joined front ++ (body ++ (Ending.crlf.text ++ t)) := by
    simp [joined_append, Line.text, Ending.text]
  rw [shape, proper.lines_joined_append, lines_append whole (by decide) (by simp)]
  intro _
  cases body with
  | nil => simp [Ending.text]
  | cons c body => simpa using fun feed => (unbroken_cons.1 whole).1 (.inl feed)

theorem endedBy_append (proper : Proper ls) (later : Proper (line :: rest))
    (apart : (joined ls).getLast? = some '\r' → line.ending ≠ .lf) :
    Proper (endedBy line.ending ls ++ rest) ∧
      joined (endedBy line.ending ls ++ rest) =
        joined ls ++ (line.ending.text ++ joined rest) := by
  induction proper with
  | last whole => exact ⟨later.with_body whole, by simp [endedBy, Line.text, Ending.text]⟩
  | @cons body ending ls whole inner lone others ih =>
    obtain ⟨proper', text⟩ := ih fun last => apart (getLast?_joined_cons last _)
    rw [endedBy_cons others.ne_nil, List.cons_append]
    refine ⟨.cons whole inner (fun cr => ?_) proper', by rw [joined_cons, text]; simp⟩
    rw [text, List.head?_append]
    cases first : (joined ls).head? with
    | some c => simpa [first] using lone cr
    | none =>
      -- the return is the last character, and what is put behind it is the ending
      have bare : joined ls = [] := List.head?_eq_none_iff.1 first
      have other : line.ending ≠ .lf := apart (by simp [bare, cr, Line.text, Ending.text])
      cases later with
      | last _ => simp [Ending.text]
      | @cons _ ending _ _ _ _ _ => cases ending <;> simp_all [Ending.text]

end Proper

namespace Text

def endings (t : Text) : List Ending :=
  (lines t).map Line.ending

variable {t : Text} {line : Line} {rest : List Line}

theorem lines_append_of_proper (later : Proper (line :: rest))
    (apart : t.getLast? = some '\r' → line.ending ≠ .lf) :
    lines (t ++ (line.ending.text ++ joined rest)) = endedBy line.ending (lines t) ++ rest := by
  obtain ⟨proper, text⟩ := (proper_lines t).endedBy_append later (by simpa using apart)
  rw [← proper.lines_joined, text, joined_lines]

theorem lines_append_return_feed (s t : Text) :
    lines (s ++ '\r' :: '\n' :: t) = endedBy .crlf (lines s) ++ lines t := by
  have later : Proper (⟨[], .crlf⟩ :: lines t) :=
    .cons unbroken_nil (by decide) (by simp) (proper_lines t)
  simpa [Ending.text] using lines_append_of_proper later (by simp)

theorem exists_lines_append_feed (s : Text) :
    ∃ ls, ∀ t, lines (s ++ '\n' :: t) = ls ++ lines t := by
  by_cases return_ : s.getLast? = some '\r'
  · obtain ⟨front, rfl⟩ := List.getLast?_eq_some_iff.1 return_
    exact ⟨endedBy .crlf (lines front), fun t => by simpa using lines_append_return_feed front t⟩
  · refine ⟨endedBy .lf (lines s), fun t => ?_⟩
    have later : Proper (⟨[], .lf⟩ :: lines t) :=
      .cons unbroken_nil (by decide) (by simp) (proper_lines t)
    simpa [Ending.text] using lines_append_of_proper later fun last => absurd last return_

theorem splitLines_append_ending {ending : Ending} (inner : ending ≠ .last) {s t : Text}
    (apart : s.getLast? = some '\r' → ending ≠ .lf)
    (lone : ending = .cr → t.head? ≠ some '\n') :
    splitLines (s ++ (ending.text ++ t)) = splitLines s ++ splitLines t := by
  have later : Proper (⟨[], ending⟩ :: lines t) :=
    .cons unbroken_nil inner (by simpa using lone) (proper_lines t)
  have split := lines_append_of_proper later apart
  rw [joined_lines] at split
  rw [splitLines, split, List.map_append, endedBy_bodies]
  rfl

end Text

namespace LineCut

variable {p : Text → Bool} {passed rest : List Line} {line : Line} {t : Text}

theorem first?_append (missed : ∀ earlier ∈ passed, p earlier.body = false) (here : p line.body)
    (rest : List Line) :
    first? p (passed ++ line :: rest) =
      some ⟨joined passed, line.body, line.ending.text ++ joined rest⟩ := by
  induction passed with
  | nil => simp [first?, here]
  | cons first passed ih =>
    have found := ih fun earlier mem => missed earlier (List.mem_cons_of_mem _ mem)
    rw [List.cons_append, first?, if_neg (by simp [missed first List.mem_cons_self]), found]
    rfl

theorem exists_of_findIdx? {i : Nat} (h : (splitLines t).findIdx? p = some i) :
    ∃ passed line rest, lines t = passed ++ line :: rest ∧ passed.length = i ∧ p line.body ∧
      ∀ earlier ∈ passed, p earlier.body = false := by
  rw [splitLines, List.findIdx?_map, List.findIdx?_eq_some_iff_getElem] at h
  obtain ⟨short, here, earlier⟩ := h
  refine ⟨(lines t).take i, (lines t)[i], (lines t).drop (i + 1), ?_, ?_, here, ?_⟩
  · rw [List.getElem_cons_drop, List.take_append_drop]
  · exact List.length_take_of_le (Nat.le_of_lt short)
  · intro line mem
    obtain ⟨j, before, rfl⟩ := List.mem_take_iff_getElem.1 mem
    simpa using earlier j (by omega)

end LineCut
end Scaffold
