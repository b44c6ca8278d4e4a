import Scaffold.Proofs.Source.DocBlock

/-! The entries of a block, written one a line and read back. A line gives back the entry that it
was written from, less the white space at its end; so what was read once is in its final form. -/

namespace Scaffold.Source.DocBlock
open Text

variable {block line entry : Text}

/-- A text that a block can hold as one entry. -/
structure IsEntry (entry : Text) : Prop where
  whole : Unbroken entry
  open_ : ¬ closer <:+: entry
  trimmed : ∀ c ∈ entry.getLast?, isBlank c = false

/-- What stands between the marks of a rendered block. -/
def renderBody (entries : List Text) : Text :=
  '\n' :: (entries.flatMap fun entry => entryLine entry ++ ['\n']) ++ [' ']

theorem joinLines_append (lines : List Text) (last : Text) :
    joinLines (lines ++ [last]) = (lines.flatMap fun line => line ++ ['\n']) ++ last := by
  induction lines with
  | nil => simp [joinLines]
  | cons line lines ih =>
    rw [List.cons_append, joinLines_cons _ (by simp), ih]
    simp

theorem render_eq (entries : List Text) :
    render entries = opener ++ renderBody entries ++ closer := by
  have lines := joinLines_append (entries.map entryLine) (' ' :: closer)
  rw [render, List.cons_append, joinLines_cons _ (by simp), lines]
  simp [renderBody, List.flatMap_map]

theorem unbroken_entryLine {entry : Text} (h : Unbroken entry) : Unbroken (entryLine entry) := by
  unfold entryLine
  split
  · decide
  · exact unbroken_append.2 ⟨by decide, h⟩

theorem open_entryLine {entry : Text} (h : ¬ closer <:+: entry) :
    ¬ closer <:+: entryLine entry := by
  unfold entryLine
  split
  · decide
  · have pair : closer = ['*', '/'] := rfl
    rw [pair, pair_infix_append_iff]
    rintro (mark | inside | ⟨last, -⟩)
    · exact absurd mark (by decide)
    · exact h inside
    · exact absurd last (by decide)

theorem clear_renderBody {entries : List Text} (clean : ∀ entry ∈ entries, ¬ closer <:+: entry) :
    Clear closer (renderBody entries) := by
  have lines : ¬ closer <:+: (entries.flatMap fun entry => entryLine entry ++ ['\n']) ++ " *".toList := by
    induction entries with
    | nil => decide
    | cons entry entries ih =>
      intro found
      rw [List.flatMap_cons, List.append_assoc, List.append_assoc] at found
      rcases infix_append_break (by decide) (.inl rfl) found with here | later
      · exact open_entryLine (clean entry List.mem_cons_self) here
      · exact ih (fun other mem => clean other (List.mem_cons_of_mem _ mem)) later
  intro found
  have first : closer <:+:
      [] ++ '\n' :: ((entries.flatMap fun entry => entryLine entry ++ ['\n']) ++ " *".toList) := by
    simpa [renderBody, closer] using found
  rcases infix_append_break (by decide) (.inl rfl) first with nothing | later
  · exact absurd (List.infix_nil.1 nothing) (by decide)
  · exact lines later

theorem entries_block (body : Text) :
    entries (opener ++ body ++ closer) = (splitLines body).filterMap entry? := by
  have closed : before? closer (body ++ closer) = some body := by
    simp [before?]
  rw [List.append_assoc, entries, after?_append, Option.getD_some, closed, Option.getD_some]

theorem entry?_entryLine (entry : Text) : entry? (entryLine entry) = some (stripEnd entry) := by
  by_cases empty : entry = []
  · subst empty
    decide
  have skipped : trimStart isBlank (" * ".toList ++ entry) = ['*', ' '] ++ entry := rfl
  unfold entry?
  rw [entryLine, if_neg empty, strip, trim, skipped]
  by_cases blank : trimEnd isBlank entry = []
  · have star : trimEnd isBlank ['*', ' '] = ['*'] := by decide
    rw [trimEnd_append_of_eq_nil blank, star, stripEnd, blank]
    rfl
  · have kept := trimEnd_append_of_ne_nil blank ['*', ' ']
    rw [kept]
    exact congrArg some (trimEnd_trimEnd isBlank entry)

theorem splitLines_renderBody {entries : List Text} (whole : ∀ entry ∈ entries, Unbroken entry) :
    splitLines (renderBody entries) = [] :: (entries.map entryLine ++ [[' ']]) := by
  have lines : splitLines ((entries.flatMap fun entry => entryLine entry ++ ['\n']) ++ [' ']) =
      entries.map entryLine ++ [[' ']] := by
    induction entries with
    | nil => rfl
    | cons entry entries ih =>
      have here := unbroken_entryLine (whole entry List.mem_cons_self)
      have rest := ih fun other mem => whole other (List.mem_cons_of_mem _ mem)
      rw [List.flatMap_cons, List.append_assoc, List.append_assoc, List.singleton_append,
        splitLines_append_lf here, rest]
      rfl
  rw [← lines]
  exact splitLines_append_lf unbroken_nil _

theorem entries_render_of_unbroken {entries : List Text}
    (whole : ∀ entry ∈ entries, Unbroken entry) :
    DocBlock.entries (render entries) = entries.map stripEnd := by
  have read : (entries.map entryLine).filterMap entry? = entries.map stripEnd := by
    have each : entry? ∘ entryLine = some ∘ stripEnd := funext entry?_entryLine
    rw [List.filterMap_map, each, List.filterMap_eq_map]
  have bare : entry? [] = none := rfl
  have blank : [[' ']].filterMap entry? = [] := by decide
  rw [render_eq, entries_block, splitLines_renderBody whole, List.filterMap_cons, bare,
    List.filterMap_append, read, blank, List.append_nil]

theorem map_stripEnd_eq_self {entries : List Text}
    (trimmed : ∀ entry ∈ entries, stripEnd entry = entry) : entries.map stripEnd = entries := by
  simpa using List.map_congr_left trimmed

theorem entries_render {entries : List Text} (clean : ∀ entry ∈ entries, IsEntry entry) :
    DocBlock.entries (render entries) = entries := by
  rw [entries_render_of_unbroken fun entry mem => (clean entry mem).whole]
  exact map_stripEnd_eq_self fun entry mem => trimEnd_eq_self_iff.2 (clean entry mem).trimmed

theorem entry?_eq_some (h : entry? line = some entry) :
    entry <:+: line ∧ stripEnd entry = entry := by
  have part : strip line <:+: line := trim_infix isBlank line
  have taken : ∀ rest : Text, rest <:+ strip line → some (stripEnd rest) = some entry →
      entry <:+: line ∧ stripEnd entry = entry := by
    intro rest tail eq
    rw [← Option.some.inj eq]
    exact ⟨((trimEnd_isPrefix _ _).isInfix.trans tail.isInfix).trans part, trimEnd_trimEnd _ _⟩
  unfold entry? at h
  split at h
  · simp at h
  · next _ rest eq => exact taken rest ⟨['*', ' '], eq.symm⟩ h
  · next _ rest _ eq => exact taken rest ⟨['*'], eq.symm⟩ h
  · exact taken _ (List.suffix_refl _) h

theorem unbroken_and_trimmed_of_mem_entries (mem : entry ∈ entries block) :
    Unbroken entry ∧ stripEnd entry = entry := by
  obtain ⟨line, found, read⟩ := List.mem_filterMap.1 mem
  obtain ⟨part, trimmed⟩ := entry?_eq_some read
  exact ⟨(unbroken_of_mem_splitLines found).of_part part, trimmed⟩

theorem isEntry_of_mem_entries {body : Text} (clear : Clear closer body)
    (mem : entry ∈ entries (opener ++ body ++ closer)) : IsEntry entry := by
  obtain ⟨whole, trimmed⟩ := unbroken_and_trimmed_of_mem_entries mem
  rw [entries_block] at mem
  obtain ⟨line, found, read⟩ := List.mem_filterMap.1 mem
  refine ⟨whole, fun inside => clear ?_, trimEnd_eq_self_iff.1 trimmed⟩
  have within := (inside.trans (entry?_eq_some read).1).trans (infix_of_mem_splitLines found)
  exact within.trans List.infix_append_left

/-- Reading a rendered block gives its entries in their order and number, each without the white
space at its end; and what was read from any text is rendered to a block that reads the same. -/
theorem rendered_reads_back :
    (∀ entries : List Text, (∀ entry ∈ entries, Unbroken entry) →
      DocBlock.entries (render entries) = entries.map stripEnd) ∧
    ∀ block : Text, DocBlock.entries (render (DocBlock.entries block)) = DocBlock.entries block := by
  refine ⟨fun entries whole => entries_render_of_unbroken whole, fun block => ?_⟩
  have final := fun entry (mem : entry ∈ entries block) => unbroken_and_trimmed_of_mem_entries mem
  rw [entries_render_of_unbroken fun entry mem => (final entry mem).1]
  exact map_stripEnd_eq_self fun entry mem => (final entry mem).2

theorem rendered_reads_back_marks :
    let marked := [[], " \u00a0".toList, "*  ".toList, "*/".toList, "  @a\t".toList]
    (∀ entry ∈ marked, Unbroken entry) ∧
      DocBlock.entries (render marked) = [[], [], "*".toList, "*/".toList, "  @a".toList] := by
  intro marked
  have whole : ∀ entry ∈ marked, Unbroken entry := by decide
  exact ⟨whole, rendered_reads_back.1 marked whole⟩

end Scaffold.Source.DocBlock
