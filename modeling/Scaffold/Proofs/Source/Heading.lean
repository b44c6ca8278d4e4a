import Scaffold.Proofs.Source.Lasting
import Scaffold.Proofs.Source.Sheet
import Scaffold.Proofs.Text.Pieces

/-! A fresh block above the declaration of a class, against entries merged into the block that is
there. A fresh block is one comment more, and a merge makes no comment, so the two come to the same
exactly where the class has no block. Where it has one, that is cut off from the class by the fresh
one, and the entries in it are no longer read. -/

namespace Scaffold.Source
open Text DocBlock

variable {t added later front after : Text} {entries known : List Text}

theorem occurrences_append_of_clear {n front : Text} (clear : Clear n front) (back : Text) :
    occurrences n (front ++ (n ++ back)) = occurrences n (n ++ back) := by
  refine occurrences_append_eq_iff.2 fun part inside more => ?_
  obtain ⟨c, part, rfl⟩ := List.exists_cons_of_ne_nil more
  rw [← List.append_assoc]
  exact after?_eq_none_of_clear (clear.of_suffix inside)

theorem after?_closer_isSome {c : Char} :
    (after? closer (c :: t)).isSome ↔ c = '*' ∧ t.head? = some '/' := by
  rw [isSome_after?_iff, List.head?_eq_some_iff]
  constructor
  · rintro ⟨rest, split⟩
    obtain ⟨rfl, rfl⟩ := List.cons.inj split
    exact ⟨rfl, rest, rfl⟩
  · rintro ⟨rfl, rest, rfl⟩
    exact ⟨rest, rfl⟩

theorem occurrences_closer_le {s t : Text} (first : s.head? = t.head?)
    (less : occurrences closer s ≤ occurrences closer t) (front : Text) :
    occurrences closer (front ++ s) ≤ occurrences closer (front ++ t) := by
  induction front with
  | nil => exact less
  | cons c front ih =>
    have next : (front ++ s).head? = (front ++ t).head? := by
      rw [List.head?_append, List.head?_append, first]
    have same : (after? closer (c :: (front ++ s))).isSome =
        (after? closer (c :: (front ++ t))).isSome := by
      rw [Bool.eq_iff_iff, after?_closer_isSome, after?_closer_isSome, next]
    rw [List.cons_append, List.cons_append, occurrences_cons, occurrences_cons, same]
    omega

theorem occurrences_render_le {body : Text} (clear : Clear closer body)
    (clean : ∀ entry ∈ entries, ¬ closer <:+: entry) (front after : Text) :
    occurrences closer (front ++ (render entries ++ after)) ≤
      occurrences closer (front ++ (opener ++ body ++ closer ++ after)) := by
  have shape (x : Text) : opener ++ x ++ closer ++ after = opener ++ (x ++ (closer ++ after)) := by
    simp
  have begins (x : Text) : (opener ++ x).head? = some '/' := rfl
  have broken (front rest : Text) : occurrences closer (front ++ '\n' :: rest) =
      occurrences closer front + occurrences closer rest :=
    occurrences_append_cons (by decide) (by decide) front rest
  have free : occurrences closer (opener ++ (renderBody entries ++ (closer ++ after))) =
      occurrences closer (renderBody entries ++ (closer ++ after)) := by
    rw [renderBody, List.cons_append, List.cons_append, broken]
    exact (broken [] _).symm
  rw [render_eq, shape, shape]
  refine occurrences_closer_le ((begins _).trans (begins _).symm) ?_ front
  rw [free, occurrences_append_of_clear (clear_renderBody clean),
    ← occurrences_append_of_clear clear]
  exact occurrences_le_append closer opener _

theorem occurrences_append_of_last {n front : Text} (filled : n ≠ [])
    (ends : ∀ c ∈ front.getLast?, c ∉ n) (back : Text) :
    occurrences n (front ++ back) = occurrences n front + occurrences n back := by
  rcases List.eq_nil_or_concat front with rfl | ⟨front, c, rfl⟩
  · rw [List.nil_append, occurrences_nil filled, Nat.zero_add]
  · rw [List.concat_eq_append] at ends ⊢
    have absent : c ∉ n := ends c (by simp)
    rw [List.append_assoc, List.singleton_append, occurrences_append_cons filled absent,
      occurrences_append_cons filled absent, occurrences_nil filled, Nat.add_zero]

theorem occurrences_lt_insertInto {cut : LineCut} {p : Text → Bool} (at_ : cut.At p t)
    (entries : List Text) :
    occurrences closer t < occurrences closer (insertInto cut [render entries] .before) := by
  have marked : 0 < occurrences closer (render entries) := by
    have found : closer <:+: render entries := by
      rw [render_eq]
      exact List.infix_append_right
    exact Nat.pos_of_ne_zero fun none_ => occurrences_eq_zero_iff.1 none_ found
  have ends : ∀ c ∈ cut.before.getLast?, c ∉ closer := by
    intro c mem
    rcases at_.opens c mem with rfl | rfl <;> decide
  have before := occurrences_append_of_last (n := closer) (by decide) ends
  have around (back : Text) : occurrences closer (render entries ++ '\n' :: back) =
      occurrences closer (render entries) + occurrences closer back :=
    occurrences_append_cons (by decide) (by decide) _ back
  have split : insertInto cut [render entries] .before =
      cut.before ++ (render entries ++ '\n' :: (cut.line ++ cut.after)) := by
    simp [insertInto, Placement.around, joinLines]
  rw [← at_.text, split, LineCut.text, List.append_assoc, before, before, around]
  omega

theorem occurrences_annotate_le {cut : DocBlockCut} (present : find? t = some cut)
    (clean : ∀ entry ∈ entries, ¬ closer <:+: entry) (merged : annotate entries t = .ok later) :
    occurrences closer later ≤ occurrences closer t := by
  have text := text_of_find? present
  obtain ⟨here, -⟩ := leftmost_of_find? present
  obtain ⟨body, rest, -, clear, -, eq⟩ := atFront?_eq_some_iff.1 here
  obtain ⟨before, block, after⟩ := cut
  simp only [DocBlockCut.mk.injEq, true_and] at eq
  obtain ⟨rfl, rfl⟩ := eq
  rw [annotate_of_find? present, Except.ok.injEq] at merged
  rw [← merged, ← text, DocBlockCut.text, List.append_assoc, List.append_assoc before]
  refine occurrences_render_le clear (fun entry mem => ?_) before after
  rcases List.mem_append.1 (List.mem_eraseDups.1 mem) with old | new
  · exact (isEntry_of_mem_entries clear old).open_
  · exact clean entry new

/-- A text with a fresh block above the declaration of its class. -/
structure Headed (entries : List Text) (added later : Text) : Prop where
  above : insertBeforeClass [render entries] added = .ok later
  /-- Entries merged come to the same where the class had no block, and nowhere else. -/
  agrees : annotate entries added = .ok later ↔ find? added = none
  /-- Only the fresh block is read, with or without one that was there. -/
  alone : ∀ cut, (Needle.pattern .classDeclaration).find added = .ok cut → Closed cut.before →
    find? cut.before = none → Sheet.classEntries? later = some (DocBlock.entries (render entries))

theorem annotate_eq_insertBeforeClass_iff (distinct : entries.Nodup)
    (clean : ∀ entry ∈ entries, ¬ closer <:+: entry)
    (above : insertBeforeClass [render entries] added = .ok later) :
    annotate entries added = .ok later ↔ find? added = none := by
  constructor
  · intro merged
    by_contra present
    obtain ⟨block, found⟩ := Option.ne_none_iff_exists'.1 present
    obtain ⟨needle, cut, at_, rfl⟩ := insertBeforeClass_eq_ok above
    -- the fresh block has a closing mark of its own, and the merge has none to spare
    have more := occurrences_lt_insertInto (Needle.at_of_find at_) entries
    exact absurd (occurrences_annotate_le found clean merged) (Nat.not_le.2 more)
  · intro absent
    rw [annotate, absent, eraseDups_eq_self distinct]
    exact above

theorem classEntries?_insertInto {cut : LineCut}
    (found : (Needle.pattern .classDeclaration).find t = .ok cut) (closed : Closed cut.before)
    (bare : find? cut.before = none) (clean : ∀ entry ∈ entries, ¬ closer <:+: entry) :
    Sheet.classEntries? (insertInto cut [render entries] .before) =
      some (DocBlock.entries (render entries)) := by
  have at_ := Needle.at_of_find found
  have settled : Settled cut.before := by
    rw [← List.append_nil cut.before] at bare
    exact settled_of_find?_eq_none bare at_.opens closed
  have ends : startsWithWord cut.after = false := by
    cases tail : cut.after with
    | nil => rfl
    | cons c rest => exact not_word_of_isBreak (at_.closes c (by simp [tail]))
  have decl : declares ('\n' :: (cut.line ++ cut.after)) := by
    rw [declares_cons_blank (by decide)]
    exact declares_append at_.holds (.inl ends)
  have split : insertInto cut [render entries] .before =
      cut.before ++ render entries ++ '\n' :: (cut.line ++ cut.after) := by
    simp [insertInto, Placement.around, joinLines]
  rw [split, render_eq, Sheet.classEntries?, find?_block settled (clear_renderBody clean) decl]
  rfl

theorem Headed.of_insertBeforeClass (distinct : entries.Nodup)
    (clean : ∀ entry ∈ entries, ¬ closer <:+: entry)
    (above : insertBeforeClass [render entries] added = .ok later) : Headed entries added later := by
  refine ⟨above, annotate_eq_insertBeforeClass_iff distinct clean above,
    fun cut found closed bare => ?_⟩
  have placed := insert_of_find found [render entries] .before
  rw [insertBeforeClass, placed, Except.ok.injEq] at above
  rw [← above]
  exact classEntries?_insertInto found closed bare clean

end Scaffold.Source
