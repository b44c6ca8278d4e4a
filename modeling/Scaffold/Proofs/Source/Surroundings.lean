import Scaffold.Proofs.Source.Annotate

/-! What stands around the block of a class when entries are merged into it. What follows the
block always stays. What precedes it stays as well, unless it holds an opener that is left open:
the block is looked for from its leftmost opener on, and such a one reaches into it. -/

namespace Scaffold.Source
open Text DocBlock

namespace DocBlock

theorem head?_renderBody (entries : List Text) : (renderBody entries).head? = some '\n' := by
  simp [renderBody]

theorem atFront?_open {inner body rest : Text} (ends : inner.getLast? = some '\n')
    (open_ : ¬ closer <:+: inner) (clear : Clear closer body) (first : body.head? = some '\n')
    (here : declares rest) :
    atFront? (opener ++ inner ++ (opener ++ body ++ closer ++ rest)) =
      some ⟨[], opener ++ inner ++ (opener ++ body ++ closer), rest⟩ := by
  have apart : ¬ closer <:+: inner ++ ['/'] := by
    have pair : closer = ['*', '/'] := rfl
    rw [pair, pair_infix_append_iff]
    rintro (inside | single | ⟨last, -⟩)
    · exact open_ inside
    · exact absurd single.length_le (by decide)
    · simp [ends] at last
  have other : body.head? ≠ some '/' := by
    rw [first]
    decide
  have block := atFront?_block (clear_across_opener apart clear other) here
  simpa only [List.append_assoc] using block

theorem getLast?_behind_opener {front inner : Text}
    (ends : ∀ c ∈ (front ++ (opener ++ inner)).getLast?, c = '\n') :
    inner.getLast? = some '\n' := by
  cases last : inner.getLast? with
  | some c => rw [ends c (by simp [last])]
  | none =>
    have mark := ends '*' (by simp [List.getLast?_eq_none_iff.1 last, opener])
    exact absurd mark (by decide)

theorem exists_first_open {t : Text} (open_ : ¬ Closed t) :
    ∃ front inner, t = front ++ (opener ++ inner) ∧ ¬ closer <:+: inner ∧
      ∀ back, back <:+ front → back ≠ [] →
        ∀ later, back ++ (opener ++ inner) = opener ++ later → closer <:+: later := by
  induction t with
  | nil =>
    refine absurd (fun inner part => ?_) open_
    simp [opener] at part
  | cons c t ih =>
    by_cases here : ∃ inner, c :: t = opener ++ inner ∧ ¬ closer <:+: inner
    · obtain ⟨inner, split, unclosed⟩ := here
      refine ⟨[], inner, split, unclosed, fun back part more => ?_⟩
      exact absurd (List.suffix_nil.1 part) more
    · have closed : ∀ inner, c :: t = opener ++ inner → closer <:+: inner := fun inner split =>
        Decidable.byContradiction fun unclosed => here ⟨inner, split, unclosed⟩
      have later : ¬ Closed t := by
        refine fun rest => open_ fun inner part => ?_
        rcases List.suffix_cons_iff.1 part with whole | inside
        · exact closed inner whole.symm
        · exact rest inner inside
      obtain ⟨front, inner, rfl, unclosed, first⟩ := ih later
      refine ⟨c :: front, inner, rfl, unclosed, fun back part more => ?_⟩
      rcases List.suffix_cons_iff.1 part with rfl | inside
      · exact closed
      · exact first back inside more

theorem find?_above_open {before decl body rest : Text} (ends : ∀ c ∈ before.getLast?, c = '\n')
    (undocumented : find? (before ++ decl) = none) (open_ : ¬ Closed before)
    (clear : Clear closer body) (first : body.head? = some '\n') (here : declares rest) :
    ∃ front inner, before = front ++ (opener ++ inner) ∧ ¬ closer <:+: inner ∧
      find? (before ++ (opener ++ body ++ closer ++ rest)) =
        some ⟨front, opener ++ inner ++ (opener ++ body ++ closer), rest⟩ := by
  obtain ⟨front, inner, rfl, unclosed, leftmost⟩ := exists_first_open open_
  have line := getLast?_behind_opener ends
  refine ⟨front, inner, rfl, unclosed, ?_⟩
  rw [List.append_assoc]
  refine find?_append (atFront?_open line unclosed clear first here) fun back part more => ?_
  -- a block from an earlier opener would have to go over that opener's own closer
  by_contra reached
  obtain ⟨cut, reached⟩ := Option.ne_none_iff_exists'.1 reached
  rw [List.append_assoc opener inner] at reached
  obtain ⟨earlier, rfl, -⟩ := exists_inner_of_atFront? more reached
  have closed := leftmost _ part more (earlier ++ (opener ++ inner)) (by simp)
  obtain ⟨ahead, rfl⟩ := part
  have whole : find? (ahead ++ (opener ++ (earlier ++ (opener ++ inner))) ++ decl) = none := by
    simpa using undocumented
  have none_ := atFront?_eq_none_of_closed whole (by simp [line, IsBreak]) closed
    (body ++ closer ++ rest)
  simp only [List.append_assoc] at none_ reached
  rw [none_] at reached
  simp at reached

theorem find?_above {before decl body rest : Text} (ends : ∀ c ∈ before.getLast?, c = '\n')
    (undocumented : find? (before ++ decl) = none) (clear : Clear closer body)
    (first : body.head? = some '\n') (here : declares rest) :
    ∃ front block,
      find? (before ++ (opener ++ body ++ closer ++ rest)) = some ⟨front, block, rest⟩ ∧
      (Closed before ∧ front = before ∧ block = opener ++ body ++ closer ∨
        ∃ inner, before = front ++ (opener ++ inner) ∧ ¬ closer <:+: inner ∧
          block = opener ++ inner ++ (opener ++ body ++ closer)) := by
  by_cases closed : Closed before
  · have breaks : ∀ c ∈ before.getLast?, IsBreak c := fun c mem => .inl (ends c mem)
    have found := find?_block (settled_of_find?_eq_none undocumented breaks closed) clear here
    rw [List.append_assoc] at found
    exact ⟨before, _, found, .inl ⟨closed, rfl, rfl⟩⟩
  · obtain ⟨front, inner, split, unclosed, found⟩ :=
      find?_above_open ends undocumented closed clear first here
    exact ⟨front, _, found, .inr ⟨inner, split, unclosed, rfl⟩⟩

end DocBlock

theorem declares_of_first_line {t : Text} (h : declares ((splitLines t).headD [])) :
    declares t := by
  have joined := joined_lines t
  have proper := proper_lines t
  cases ls : lines t with
  | nil =>
    rw [ls] at proper
    cases proper
  | cons line rest =>
    rw [splitLines, ls] at h
    rw [ls] at joined proper
    rw [← joined, joined_cons, Line.text, List.append_assoc]
    refine declares_append h (.inl ?_)
    cases proper with
    | last _ => rfl
    | @cons _ ending _ _ inner _ _ =>
      obtain ⟨c, others, eq⟩ := List.exists_cons_of_ne_nil (Ending.text_ne_nil inner)
      have first : c ∈ ending.text := by simp [eq]
      have break_ := Ending.isBreak_of_mem first
      simp [eq, startsWithWord, not_word_of_isBreak break_]

/-- Merging entries into the block above a declaration keeps what follows the block, and what
precedes it up to the first opener that is left open; with none, the block is the class's own. -/
theorem annotate_between {before decl : Text} {known : List Text}
    (ends : ∀ c ∈ before.getLast?, c = '\n') (clean : ∀ entry ∈ known, ¬ closer <:+: entry)
    (declared : declares ((splitLines decl).headD []))
    (undocumented : find? (before ++ decl) = none) (entries : List Text) :
    ∃ front block,
      annotate entries (before ++ render known ++ '\n' :: decl) =
        .ok (front ++ render (mergedEntries block entries) ++ '\n' :: decl) ∧
      (Closed before ∧ front = before ∧ block = render known ∨
        ∃ inner, before = front ++ (opener ++ inner) ∧ ¬ closer <:+: inner ∧
          block = opener ++ inner ++ render known) := by
  have here : declares ('\n' :: decl) := by
    rw [declares_cons_blank (by decide)]
    exact declares_of_first_line declared
  obtain ⟨front, block, found, which⟩ :=
    find?_above ends undocumented (clear_renderBody clean) (head?_renderBody known) here
  rw [← render_eq, ← List.append_assoc] at found
  rw [← render_eq] at which
  exact ⟨front, block, annotate_of_find? found entries, which⟩

theorem annotate_between_final :
    let before := "<?php\r\n/** h */ f();\n".toList
    let decl := "final class A".toList
    ∃ front block,
      annotate ["@b".toList] (before ++ render ["@a *".toList, []] ++ '\n' :: decl) =
        .ok (front ++ render (mergedEntries block ["@b".toList]) ++ '\n' :: decl) ∧
      (Closed before ∧ front = before ∧ block = render ["@a *".toList, []] ∨
        ∃ inner, before = front ++ (opener ++ inner) ∧ ¬ closer <:+: inner ∧
          block = opener ++ inner ++ render ["@a *".toList, []]) :=
  annotate_between (by intro c last; exact (Option.some.inj last).symm) (by decide)
    (by decide +kernel) (by decide +kernel) _

/-- The line behind an opener left open in a line comment becomes an entry of the block. -/
theorem annotate_takes_line :
    let before := "<?php\n// scans app/**\nf();\n".toList
    let decl := "class A\n".toList
    let later := "<?php\n// scans app/**\n * f();\n * /**\n * @a\n * @b\n */\nclass A\n".toList
    (∀ c ∈ before.getLast?, c = '\n') ∧ ¬ closer <:+: "@a".toList ∧
      declares ((splitLines decl).headD []) ∧ find? (before ++ decl) = none ∧
      annotate ["@b".toList] (before ++ render ["@a".toList] ++ '\n' :: decl) = .ok later ∧
      ¬ before <+: later := by
  refine ⟨fun _ last => (Option.some.inj last).symm, ?_⟩
  decide +kernel

end Scaffold.Source
