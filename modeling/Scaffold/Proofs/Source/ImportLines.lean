import Scaffold.Proofs.Source.Import
import Scaffold.Proofs.Text.Joint

/-! Imports line by line. Names are read up to a line feed, while a lone carriage return ends a
line as well. So the names of a text are those of its lines, unless a statement seems to go on
over such a return: then one name is read that reaches from the first line to the last. -/

namespace Scaffold.Source
open Text

variable {t line row front back rest name : Text}

namespace Import

theorem name?_eq_none_of_not_mem (unclosed : ';' ∉ line) : name? line = none := by
  rw [Option.eq_none_iff_forall_ne_some]
  intro name found
  obtain ⟨front, tail, rfl, -⟩ := name?_eq_some_iff.1 found
  simp at unclosed

theorem name?_eq_none_of_unopened (unopened : ¬ opener <:+: line) : name? line = none := by
  rw [name?, cut?_eq_none_iff.2 unopened]
  rfl

theorem name?_append_cr_cons (unopened : ¬ opener <:+: line) (rest : Text) :
    name? (line ++ '\r' :: rest) = name? rest := by
  have across : ∀ back, opener <:+: line ++ '\r' :: back → opener <:+: back := by
    intro back found
    rcases infix_append_break (by decide) (.inr rfl) found with here | later
    · exact absurd here unopened
    · exact later
  cases found : cut? opener rest with
  | none =>
    have nowhere := cut?_eq_none_iff.1 found
    rw [name?_eq_none_of_unopened nowhere, name?_eq_none_of_unopened fun h => nowhere (across _ h)]
  | some pieces =>
    obtain ⟨rfl, clear⟩ := (cut?_eq_some_iff (by decide)).1 found
    have clear' : Clear opener (line ++ '\r' :: pieces.1) := by
      rw [Clear, List.append_assoc, List.cons_append]
      exact fun h => clear (across _ h)
    have found' := cut?_append (by decide) clear' pieces.2
    rw [List.append_assoc, List.append_assoc, List.cons_append, ← List.append_assoc] at found'
    rw [name?, name?, found, found']
    rfl

theorem name?_append_of_not_mem (opened : opener <:+: line) (unclosed : ';' ∉ rest) :
    name? (line ++ rest) = name? line := by
  obtain ⟨⟨front, inner⟩, cut⟩ := Option.isSome_iff_exists.1 (occurs_iff.2 opened)
  obtain ⟨rfl, clear⟩ := (cut?_eq_some_iff (by decide)).1 cut
  have cut' : cut? opener (front ++ opener ++ inner ++ rest) = some (front, inner ++ rest) := by
    rw [List.append_assoc]
    exact cut?_append (by decide) clear _
  rw [name?, name?, cut, cut']
  simp only [Option.bind_eq_bind, Option.bind_some]
  cases found : cutLast? ';' inner with
  | none =>
    have absent := cutLast?_eq_none_iff.1 found
    rw [cutLast?_eq_none_iff.2 (by simp [absent, unclosed])]
  | some pieces =>
    obtain ⟨rfl, absent⟩ := cutLast?_eq_some_iff.1 found
    have last : ';' ∉ pieces.2 ++ rest := by simp [absent, unclosed]
    rw [List.append_assoc, List.cons_append, cutLast?_append last]
    rfl

end Import

/-- A statement is opened in front of a lone carriage return and closed behind it, with no line
feed in between. -/
def Carried (t : Text) : Prop :=
  ∃ opened closed : Text, '\n' ∉ opened ∧ '\n' ∉ closed ∧
    Import.opener ++ opened ++ '\r' :: (closed ++ [';']) <:+: t

theorem Carried.of_part {part : Text} (h : Carried part) (inside : part <:+: t) : Carried t := by
  obtain ⟨opened, closed, flat, flat', found⟩ := h
  exact ⟨opened, closed, flat, flat', found.trans inside⟩

theorem carried_append_lf : Carried (front ++ '\n' :: back) ↔ Carried front ∨ Carried back := by
  constructor
  · rintro ⟨opened, closed, flat, flat', found⟩
    have absent : '\n' ∉ Import.opener ++ opened ++ '\r' :: (closed ++ [';']) := by
      simp [Import.opener, flat, flat']
    rcases infix_append_cons absent found with here | later
    · exact .inl ⟨opened, closed, flat, flat', here⟩
    · exact .inr ⟨opened, closed, flat, flat', later⟩
  · rintro (here | later)
    · exact here.of_part List.infix_append_left
    · exact later.of_part ⟨front ++ ['\n'], [], by simp⟩

theorem carried_row_iff (flat : '\n' ∉ row) :
    Carried row ↔ ∃ name, Import.name? row = some name ∧ '\r' ∈ name := by
  constructor
  · rintro ⟨opened, closed, -, -, ahead, behind, eq⟩
    have found : Import.opener <:+: row := ⟨ahead, opened ++ '\r' :: (closed ++ [';']) ++ behind,
      by simp [← eq]⟩
    obtain ⟨⟨front, inner⟩, cut⟩ := Option.isSome_iff_exists.1 (occurs_iff.2 found)
    obtain ⟨rfl, clear⟩ := (cut?_eq_some_iff (by decide)).1 cut
    -- all that is read stands behind the first opener, so the return and the semicolon do too
    obtain ⟨passed, rfl⟩ : opened ++ '\r' :: closed ++ ';' :: behind <:+ inner :=
      suffix_of_clear clear (by simpa using eq)
    obtain ⟨name, tail, split, last⟩ : ∃ name tail,
        passed ++ (opened ++ '\r' :: closed ++ ';' :: behind) = name ++ ';' :: tail ∧ ';' ∉ tail :=
      exists_last_of_mem (by simp)
    refine ⟨name, Import.name?_eq_some_iff.2 ⟨front, tail, by rw [← split], clear, last⟩, ?_⟩
    have within : passed ++ opened ++ '\r' :: closed <+: name :=
      prefix_of_not_mem last (by simpa using split)
    exact within.subset (by simp)
  · rintro ⟨name, found, inside⟩
    obtain ⟨front, tail, rfl, -⟩ := Import.name?_eq_some_iff.1 found
    obtain ⟨opened, closed, rfl⟩ := List.append_of_mem inside
    simp only [List.mem_append, List.mem_cons, not_or] at flat
    obtain ⟨-, ⟨flat, -, flat'⟩, -⟩ := flat
    exact ⟨opened, closed, flat, flat', front, tail, by simp⟩

theorem carried_iff {t : Text} : Carried t ↔ ∃ name ∈ imports t, '\r' ∈ name := by
  by_cases more : '\n' ∈ t
  · obtain ⟨row, back, rfl, flat⟩ := List.eq_append_cons_of_mem more
    rw [carried_append_lf, carried_row_iff flat, carried_iff, imports_append_lf,
      imports_of_not_mem_lf flat]
    simp only [List.mem_append, Option.mem_toList, or_and_right, exists_or]
  · rw [carried_row_iff more, imports_of_not_mem_lf more]
    simp only [Option.mem_toList]
termination_by t.length
decreasing_by simp_all; omega

/-- The names read from each line alone. -/
def lineImports (t : Text) : List Text :=
  (splitLines t).flatMap imports

theorem mem_lineImports : name ∈ lineImports t ↔ ∃ line ∈ splitLines t, name ∈ imports line :=
  List.mem_flatMap

theorem lineImports_of_unbroken (whole : Unbroken t) : lineImports t = imports t := by
  simp [lineImports, splitLines, lines_of_unbroken whole]

theorem lineImports_append_ending {ending : Ending} (inner : ending ≠ .last) (front back : Text)
    (apart : front.getLast? = some '\r' → ending ≠ .lf)
    (lone : ending = .cr → back.head? ≠ some '\n') :
    lineImports (front ++ (ending.text ++ back)) = lineImports front ++ lineImports back := by
  rw [lineImports, splitLines_append_ending inner apart lone, List.flatMap_append]
  rfl

theorem lineImports_append_lf (front back : Text) :
    lineImports (front ++ '\n' :: back) = lineImports front ++ lineImports back := by
  have feed : Ending.lf ≠ .last := by decide
  have pair : Ending.crlf ≠ .last := by decide
  have lone : Ending.cr ≠ .last := by decide
  by_cases paired : front.getLast? = some '\r'
  · -- the line feed is the second half of an ending, and the return alone would be one as well
    obtain ⟨line, rfl⟩ := List.getLast?_eq_some_iff.1 paired
    have half : lineImports (line ++ ['\r']) = lineImports line ++ lineImports [] :=
      lineImports_append_ending lone line [] (by simp) (by simp)
    have nothing : lineImports [] = [] := lineImports_of_unbroken unbroken_nil
    rw [half, nothing, List.append_nil, List.append_assoc]
    exact lineImports_append_ending pair line back (by simp) (by simp)
  · exact lineImports_append_ending feed front back (fun last => absurd last paired) (by simp)

theorem lineImports_of_unclosed (unclosed : ';' ∉ t) : lineImports t = [] := by
  refine List.flatMap_eq_nil_iff.2 fun line mem => ?_
  have absent : ';' ∉ line := fun inside => unclosed ((infix_of_mem_splitLines mem).subset inside)
  rw [imports_of_not_mem_lf (unbroken_of_mem_splitLines mem).not_mem_lf,
    Import.name?_eq_none_of_not_mem absent]
  rfl

theorem imports_row {row : Text} (flat : '\n' ∉ row) (inside : ¬ Carried row) :
    imports row = lineImports row := by
  by_cases more : '\r' ∈ row
  · obtain ⟨line, rest, rfl, single⟩ := List.eq_append_cons_of_mem more
    have flat' := flat
    simp only [List.mem_append, List.mem_cons, not_or] at flat'
    obtain ⟨flatLine, -, flatRest⟩ := flat'
    have whole : Unbroken line := by
      rintro c mem (rfl | rfl)
      · exact flatLine mem
      · exact single mem
    have cr : Ending.cr ≠ .last := by decide
    have split : lineImports (line ++ '\r' :: rest) = imports line ++ lineImports rest := by
      rw [← lineImports_of_unbroken whole]
      exact lineImports_append_ending cr line rest (by simp)
        fun _ head => flatRest (List.mem_of_head? head)
    rw [split, imports_of_not_mem_lf flat, imports_of_not_mem_lf flatLine]
    -- a statement opened in the line cannot be closed behind it, and an unopened line says nothing
    by_cases opened : Import.opener <:+: line
    · have unclosed : ';' ∉ rest := by
        intro closed
        obtain ⟨ahead, name, rfl⟩ := opened
        obtain ⟨closing, tail, rfl⟩ := List.append_of_mem closed
        simp only [List.mem_append, List.mem_cons, not_or] at flatLine flatRest
        exact inside ⟨name, closing, flatLine.2, flatRest.1, ahead, tail, by simp⟩
      rw [Import.name?_append_of_not_mem opened (by simpa using unclosed),
        lineImports_of_unclosed unclosed, List.append_nil]
    · have within : ¬ Carried rest := fun later =>
        inside (later.of_part ⟨line ++ ['\r'], [], by simp⟩)
      rw [Import.name?_append_cr_cons opened, Import.name?_eq_none_of_unopened opened,
        ← imports_row flatRest within, imports_of_not_mem_lf flatRest]
      rfl
  · refine (lineImports_of_unbroken ?_).symm
    rintro c mem (rfl | rfl)
    · exact flat mem
    · exact more mem
termination_by row.length
decreasing_by simp_all; omega

theorem imports_eq_lineImports {t : Text} (inside : ¬ Carried t) : imports t = lineImports t := by
  by_cases more : '\n' ∈ t
  · obtain ⟨row, back, rfl, flat⟩ := List.eq_append_cons_of_mem more
    rw [carried_append_lf, not_or] at inside
    rw [imports_append_lf, lineImports_append_lf, imports_row flat inside.1,
      imports_eq_lineImports inside.2]
  · exact imports_row more inside
termination_by t.length
decreasing_by simp_all; omega

theorem not_carried_of_paired (paired : PairedReturns t) : ¬ Carried t := by
  rintro ⟨opened, closed, -, flat, ahead, behind, rfl⟩
  have next := paired (ahead ++ Import.opener ++ opened) (closed ++ [';'] ++ behind) (by simp)
  cases closed with
  | nil => simp at next
  | cons c closed =>
    have feed : c = '\n' := by simpa using next
    simp [feed] at flat

/-- The names of a text are the names of its lines exactly where no statement is carried over a
lone carriage return, so in all texts whose lines end in line feeds or in pairs. -/
theorem imports_by_lines_iff (t : Text) :
    ((∀ name, name ∈ imports t ↔ ∃ line ∈ splitLines t, name ∈ imports line) ↔ ¬ Carried t) ∧
    (PairedReturns t → imports t = (splitLines t).flatMap imports) := by
  refine ⟨⟨fun agree carried => ?_, fun inside name => ?_⟩, fun paired => ?_⟩
  · obtain ⟨name, read, broken⟩ := carried_iff.1 carried
    obtain ⟨line, mem, here⟩ := (agree name).1 read
    have whole := unbroken_of_mem_splitLines mem
    rw [imports_of_not_mem_lf whole.not_mem_lf, Option.mem_toList] at here
    obtain ⟨front, tail, rfl, -⟩ := Import.name?_eq_some_iff.1 here
    exact whole.not_mem_cr (by simp [broken])
  · rw [imports_eq_lineImports inside, mem_lineImports]
  · exact imports_eq_lineImports (not_carried_of_paired paired)

theorem imports_by_lines_iff_pairs :
    PairedReturns "use A;\r\nuse B; use C;\n".toList ∧
      imports "use A;\r\nuse B; use C;\n".toList =
        (splitLines "use A;\r\nuse B; use C;\n".toList).flatMap imports :=
  have paired : PairedReturns "use A;\r\nuse B; use C;\n".toList := by decide
  ⟨paired, (imports_by_lines_iff _).2 paired⟩

/-- Two lines that a lone return sets apart are read as one name. -/
theorem imports_over_return :
    ¬ ∀ name, name ∈ imports "use A;\ruse B;".toList ↔
      ∃ line ∈ splitLines "use A;\ruse B;".toList, name ∈ imports line := by
  intro agree
  have unseen : "A".toList ∉ imports "use A;\ruse B;".toList := by decide
  exact unseen ((agree "A".toList).2 ⟨"use A;".toList, by decide, by decide⟩)

end Scaffold.Source
