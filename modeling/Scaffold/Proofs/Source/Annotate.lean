import Scaffold.Proofs.Source.Entry
import Scaffold.Proofs.Source.Insertion
import Scaffold.Source.Edit

/-! Merging entries into the block of a class. A merge only exchanges the block between two
fixed parts of the text, and the next merge finds the block in the same place; so two merges in
turn are one merge of all entries, and a merge made before changes nothing. -/

namespace Scaffold.Source
open Text DocBlock

theorem eraseDups_append_of_subset {known entries : List Text} (h : entries ⊆ known) :
    (known ++ entries).eraseDups = known.eraseDups := by
  have nothing : entries.removeAll known = [] := by
    refine List.filter_eq_nil_iff.2 fun entry mem => ?_
    simp [h mem]
  rw [List.eraseDups_append, nothing, List.eraseDups_nil, List.append_nil]

theorem eraseDups_eq_self {entries : List Text} (distinct : entries.Nodup) :
    entries.eraseDups = entries := by
  induction entries with
  | nil => rfl
  | cons entry entries ih =>
    obtain ⟨absent, rest⟩ := List.nodup_cons.1 distinct
    have kept : entries.filter (!· == entry) = entries := by
      refine List.filter_eq_self.2 fun other mem => ?_
      simpa using ne_of_mem_of_not_mem mem absent
    rw [List.eraseDups_cons, kept, ih rest]

theorem eraseDups_eraseDups_append (known entries : List Text) :
    (known.eraseDups ++ entries).eraseDups = (known ++ entries).eraseDups := by
  match known with
  | [] => rfl
  | entry :: known =>
    have shorter : (known.filter (!· == entry)).length < known.length + 1 :=
      Nat.lt_succ_of_le (List.length_filter_le _ _)
    have kept : (known.filter (!· == entry)).eraseDups.filter (!· == entry) =
        (known.filter (!· == entry)).eraseDups := by
      refine List.filter_eq_self.2 fun other mem => ?_
      exact (List.mem_filter.1 (List.mem_eraseDups.1 mem)).2
    rw [List.eraseDups_cons, List.cons_append, List.eraseDups_cons, List.filter_append, kept,
      eraseDups_eraseDups_append, ← List.filter_append, List.cons_append, List.eraseDups_cons]
termination_by known.length

theorem annotate_of_find? {t : Text} {cut : DocBlockCut} (h : find? t = some cut)
    (entries : List Text) :
    annotate entries t = .ok (cut.before ++ render (mergedEntries cut.block entries) ++ cut.after) := by
  rw [annotate, h]

theorem annotate_of_declaration {t : Text} {cut : LineCut} (h : find? t = none)
    (found : (Needle.pattern .classDeclaration).find t = .ok cut) (entries : List Text) :
    annotate entries t =
      .ok (cut.before ++ render entries.eraseDups ++ ('\n' :: (cut.line ++ cut.after))) := by
  have placed := insert_of_find found [render entries.eraseDups] .before
  rw [annotate, h]
  simp only [insertBeforeClass, placed]
  simp [insertInto, Placement.around, joinLines]

/-- The block is in place, or there is a declaration line to put it above and no open comment
in front of that line. -/
def Annotatable (t : Text) : Prop :=
  (∃ cut, find? t = some cut) ∨
    ∃ cut, (Needle.pattern .classDeclaration).find t = .ok cut ∧ Closed cut.before

theorem exists_frame {t : Text} (place : Annotatable t) (sound : ¬ "/**/".toList <:+: t) :
    ∃ before known after, Settled before ∧ declares after ∧ (∀ entry ∈ known, IsEntry entry) ∧
      ∀ entries, annotate entries t =
        .ok (before ++ render (known ++ entries).eraseDups ++ after) := by
  -- the frame is what is around the block or, without one, around the place it would go to
  cases present : find? t with
  | some cut =>
    obtain ⟨here, -⟩ := leftmost_of_find? present
    obtain ⟨body, rest, -, clear, decl, eq⟩ := atFront?_eq_some_iff.1 here
    simp only [DocBlockCut.mk.injEq, true_and] at eq
    refine ⟨cut.before, DocBlock.entries cut.block, cut.after, settled_of_find? present sound,
      eq.2 ▸ decl, fun entry mem => ?_, annotate_of_find? present⟩
    rw [eq.1] at mem
    exact isEntry_of_mem_entries clear mem
  | none =>
    obtain ⟨cut, found⟩ | ⟨cut, found, closed⟩ := place
    · simp [present] at found
    · have at_ := Needle.at_of_find found
      have split : cut.before ++ (cut.line ++ cut.after) = t := by
        rw [← List.append_assoc]
        exact at_.text
      refine ⟨cut.before, [], '\n' :: (cut.line ++ cut.after), ?_, ?_, by simp,
        annotate_of_declaration present found⟩
      · exact settled_of_find?_eq_none (split ▸ present) at_.opens closed
      · have line : declares cut.line := at_.holds
        have ends : startsWithWord cut.after = false := by
          cases tail : cut.after with
          | nil => rfl
          | cons c rest => exact not_word_of_isBreak (at_.closes c (by simp [tail]))
        rw [declares_cons_blank (by decide)]
        exact declares_append line (.inl ends)

theorem annotate_render {before after : Text} {known : List Text} (settled : Settled before)
    (here : declares after) (clean : ∀ entry ∈ known, IsEntry entry) (entries : List Text) :
    annotate entries (before ++ render known ++ after) =
      .ok (before ++ render (known ++ entries).eraseDups ++ after) := by
  have found := find?_block settled (clear_renderBody fun entry mem => (clean entry mem).open_) here
  rw [← render_eq] at found
  rw [annotate_of_find? found, mergedEntries, entries_render clean]

/-- Merges in turn are one merge of all entries, and a repeated merge is none. -/
theorem annotate_annotate {t : Text} (place : Annotatable t) (sound : ¬ "/**/".toList <:+: t)
    {first : List Text} (clean : ∀ entry ∈ first, IsEntry entry) (second : List Text) :
    ∃ once twice, annotate first t = .ok once ∧ annotate second once = .ok twice ∧
      annotate (first ++ second) t = .ok twice ∧ annotate first once = .ok once := by
  obtain ⟨before, known, after, settled, here, knownClean, merge⟩ := exists_frame place sound
  have merged : ∀ entry ∈ (known ++ first).eraseDups, IsEntry entry := by
    intro entry mem
    rcases List.mem_append.1 (List.mem_eraseDups.1 mem) with old | new
    · exact knownClean entry old
    · exact clean entry new
  refine ⟨_, _, merge first, annotate_render settled here merged second, ?_, ?_⟩
  · rw [merge, eraseDups_eraseDups_append, List.append_assoc known]
  · have known : first ⊆ known ++ first := List.subset_append_right _ _
    rw [annotate_render settled here merged, eraseDups_eraseDups_append,
      eraseDups_append_of_subset known]

theorem annotate_annotate_final :
    ∃ once twice,
      annotate ["@a".toList, [], "* b".toList] "<?php\r\n/** h */\r\nfinal class A\r\n".toList =
        .ok once ∧
      annotate ["@c".toList, "@a".toList] once = .ok twice ∧
      annotate ["@a".toList, [], "* b".toList, "@c".toList, "@a".toList]
        "<?php\r\n/** h */\r\nfinal class A\r\n".toList = .ok twice ∧
      annotate ["@a".toList, [], "* b".toList] once = .ok once := by
  have found : LineCut.first? (Needle.pattern .classDeclaration).holds
      (lines "<?php\r\n/** h */\r\nfinal class A\r\n".toList) =
        some ⟨"<?php\r\n/** h */\r\n".toList, "final class A".toList, "\r\n".toList⟩ := by
    decide +kernel
  have place : Annotatable "<?php\r\n/** h */\r\nfinal class A\r\n".toList :=
    .inr ⟨_, Needle.find_eq_ok_iff.2 found, by decide⟩
  have clean : ∀ entry ∈ ["@a".toList, [], "* b".toList], IsEntry entry := by
    intro entry mem
    simp only [List.mem_cons, List.not_mem_nil, or_false] at mem
    rcases mem with rfl | rfl | rfl <;> exact ⟨by decide, by decide, trimEnd_eq_self_iff.1 (by decide)⟩
  exact annotate_annotate place (by decide) clean ["@c".toList, "@a".toList]

end Scaffold.Source
