import Scaffold.Proofs.Composition.Injection
import Scaffold.Proofs.Source.Annotate

/-! When an edit of a class source is refused. Each refusal comes down to a word or a character that
is nowhere in the text: the namespace word, the class word, the closing brace. An edit looks for it
in the whole text before it goes through the lines, or falls back on it when no line has the shape
it is after; the two searches agree, so no other refusal comes from within. -/

namespace Scaffold
open Text

namespace Source
open DocBlock

variable {t added : Text} {fault : Fault} {names blocks entries : List Text} {block : Text}

theorem Needle.find_literal_eq_error_iff {word : Text} (whole : Unbroken word) :
    (literal word).find t = .error fault ↔ fault = .anchorNotFound word ∧ ¬ word <:+: t := by
  rw [find_eq_error_iff]
  refine and_congr_right fun _ => ⟨fun nowhere inside => ?_, fun absent line mem => ?_⟩
  · obtain ⟨cut, found⟩ := exists_find_literal whole (occurs_iff.2 inside)
    rw [find_eq_error_iff.2 ⟨rfl, nowhere⟩] at found
    simp at found
  · refine Bool.eq_false_iff.2 fun held => absent ?_
    exact (occurs_iff.1 held).trans (infix_of_mem_splitLines mem)

theorem addImports_eq_error_iff :
    addImports names t = .error fault ↔ fault = .noNamespace ∧ ¬ namespaceWord <:+: t := by
  by_cases spaced : namespaceWord <:+: t
  · obtain ⟨cut, found⟩ := Needle.exists_find_literal (by decide) (occurs_iff.2 spaced)
    simp [addImports_eq found, spaced]
  · have absent : occurs namespaceWord t = false := Bool.eq_false_iff.2 (mt occurs_iff.1 spaced)
    simp [addImports, absent, spaced, eq_comm]

theorem Header.keyword_infix {header : Text} (h : Header header) : keyword <:+: header := by
  induction h with
  | word _ => exact List.infix_append_right
  | @modifier blanks modifier rest c _ _ _ _ ih =>
    exact ih.trans ⟨blanks ++ modifier ++ [c], [], by simp⟩

theorem keyword_infix_of_declares (h : declares t) : keyword <:+: t := by
  obtain ⟨header, rest, rfl, inner, -⟩ := exists_header_of_declares h
  exact inner.keyword_infix.trans List.infix_append_left

theorem insertBeforeClass_eq_error_iff : insertBeforeClass blocks t = .error fault ↔
    fault = .anchorNotFound keyword ∧ ¬ keyword <:+: t := by
  rw [insertBeforeClass]
  cases found : (Needle.pattern .classDeclaration).find t with
  | error other =>
    rw [insert_eq_error_iff.2 found]
    exact insert_eq_error_iff.trans (Needle.find_literal_eq_error_iff (by decide))
  | ok cut =>
    have at_ := Needle.at_of_find found
    have inside : keyword <:+: cut.line := keyword_infix_of_declares at_.holds
    have within_ : keyword <:+: t := at_.text ▸
      (List.infix_append_of_infix_right inside).trans List.infix_append_left
    simp [insert_of_find found, within_]

theorem annotate_eq_error_iff : annotate entries t = .error fault ↔
    fault = .anchorNotFound keyword ∧ find? t = none ∧ ¬ keyword <:+: t := by
  rw [annotate]
  cases present : find? t with
  | some cut => simp
  | none => simp [insertBeforeClass_eq_error_iff]

theorem annotate_of_extendedBlock {cut : DocBlockCut} (found : find? t = some cut) :
    ∃ block, extendedBlock entries t = .ok block ∧
      annotate entries t = .ok (cut.before ++ block ++ cut.after) := by
  refine ⟨render (mergedEntries cut.block entries), ?_, annotate_of_find? found entries⟩
  rw [extendedBlock, found]

theorem appendToBody_eq_error_iff :
    appendToBody block t = .error fault ↔ fault = .noClosingBrace ∧ '\x7d' ∉ t := by
  rw [appendToBody, ← cutLast?_eq_none_iff]
  cases cutLast? '\x7d' t <;> simp [eq_comm]

theorem mem_addImports {c : Char} (other : c ∉ "\nuse ;".toList) (free : ∀ name ∈ names, c ∉ name)
    (h : addImports names t = .ok added) : c ∈ added ↔ c ∈ t := by
  have spaced : namespaceWord <:+: t := by
    by_contra absent
    rw [addImports_eq_error_iff.2 ⟨rfl, absent⟩] at h
    simp at h
  obtain ⟨cut, found⟩ := Needle.exists_find_literal (by decide) (occurs_iff.2 spaced)
  have text : cut.before ++ cut.line ++ cut.after = t := (Needle.at_of_find found).text
  have lines : c ∉ importLines (missingImports t names) :=
    not_mem_importLines other fun name mem => free name (mem_missingImports.1 mem).1
  have brought : c ∈ cut.before ++ cut.line ++ importLines (missingImports t names) ++ cut.after ↔
      c ∈ cut.before ++ cut.line ++ cut.after := by simp [lines]
  rw [addImports_eq found, Except.ok.injEq] at h
  rwa [h, text] at brought

end Source

namespace Recipe
open Source

variable {t block : Text} {fault : Fault} {names : List Text} {marker subject : Option Text}

/-- The text carries the marker; an empty one counts as none. -/
def Marked (marker : Option Text) (t : Text) : Prop :=
  ∃ mark ∈ marker, mark ≠ [] ∧ mark <:+: t

theorem inject_of_not_marked (free : ∀ name ∈ names, '\x7d' ∉ name) (bare : ¬ Marked marker t) :
    inject names block marker subject t = .error fault ↔
      (fault = .noNamespace ∧ ¬ namespaceWord <:+: t) ∨
        (fault = .noClosingBrace ∧ namespaceWord <:+: t ∧ '\x7d' ∉ t) := by
  have unmarked : ∀ mark ∈ marker, mark ≠ [] → isComposed mark t = false :=
    fun mark given filled => Bool.eq_false_iff.2 fun found =>
      bare ⟨mark, given, filled, occurs_iff.1 found⟩
  rw [inject_eq unmarked]
  cases step : addImports names t with
  | error other =>
    obtain ⟨rfl, absent⟩ := addImports_eq_error_iff.1 step
    simp [bind, Except.bind, absent, eq_comm]
  | ok added =>
    have spaced : namespaceWord <:+: t := by
      by_contra absent
      rw [addImports_eq_error_iff.2 ⟨rfl, absent⟩] at step
      simp at step
    have braces : '\x7d' ∈ added ↔ '\x7d' ∈ t := mem_addImports (by decide) free step
    simp [bind, Except.bind, appendToBody_eq_error_iff, braces, spaced]

theorem inject_eq_error_iff (free : ∀ name ∈ names, '\x7d' ∉ name) :
    inject names block marker subject t = .error fault ↔
      (∃ mark ∈ marker, mark ≠ [] ∧ mark <:+: t ∧ fault = .alreadyComposed mark subject) ∨
        (¬ Marked marker t ∧ ((fault = .noNamespace ∧ ¬ namespaceWord <:+: t) ∨
          (fault = .noClosingBrace ∧ namespaceWord <:+: t ∧ '\x7d' ∉ t))) := by
  by_cases composed : Marked marker t
  · obtain ⟨mark, rfl, filled, inside⟩ := id composed
    simp [inject_of_composed filled inside, composed, filled, inside, eq_comm]
  · rw [inject_of_not_marked free composed]
    refine ⟨fun other => .inr ⟨composed, other⟩, fun either => ?_⟩
    rcases either with ⟨mark, given, filled, inside, -⟩ | ⟨-, other⟩
    · exact absurd ⟨mark, given, filled, inside⟩ composed
    · exact other

/-- What each edit of a text is refused for. The searches made within an edit fail only where the
text as a whole lacks what they look for: the anchor of the imports is there if the namespace word
is, the block to be extended is the one that was found, and imports without a brace neither bring
nor take the brace that a composition needs. -/
theorem edits_refused_iff (t : Text) :
    (∀ names fault, addImports names t = .error fault ↔
      fault = .noNamespace ∧ ¬ namespaceWord <:+: t) ∧
    (∀ blocks fault, insertBeforeClass blocks t = .error fault ↔
      fault = .anchorNotFound keyword ∧ ¬ keyword <:+: t) ∧
    (∀ entries fault, annotate entries t = .error fault ↔
      fault = .anchorNotFound keyword ∧ DocBlock.find? t = none ∧ ¬ keyword <:+: t) ∧
    (∀ entries cut, DocBlock.find? t = some cut → ∃ block, extendedBlock entries t = .ok block ∧
      annotate entries t = .ok (cut.before ++ block ++ cut.after)) ∧
    ∀ names block marker subject, (∀ name ∈ names, '\x7d' ∉ name) → ∀ fault,
      inject names block marker subject t = .error fault ↔
        (∃ mark ∈ marker, mark ≠ [] ∧ mark <:+: t ∧ fault = .alreadyComposed mark subject) ∨
          (¬ Marked marker t ∧ ((fault = .noNamespace ∧ ¬ namespaceWord <:+: t) ∨
            (fault = .noClosingBrace ∧ namespaceWord <:+: t ∧ '\x7d' ∉ t))) :=
  ⟨fun _ _ => addImports_eq_error_iff, fun _ _ => insertBeforeClass_eq_error_iff,
    fun _ _ => annotate_eq_error_iff, fun _ _ => annotate_of_extendedBlock,
    fun _ _ _ _ free _ => inject_eq_error_iff free⟩

theorem edits_refused_iff_unclosed :
    let t := "<?php namespace A; abstract class B \x7b".toList
    (∀ name ∈ ["A\\C".toList], '\x7d' ∉ name) ∧
      inject ["A\\C".toList] "f();".toList (some []) none t = .error .noClosingBrace := by
  intro t
  have free : ∀ name ∈ ["A\\C".toList], '\x7d' ∉ name := by decide
  refine ⟨free, ((edits_refused_iff t).2.2.2.2 _ _ _ _ free _).2 (.inr ⟨?_, .inr ⟨rfl, ?_, ?_⟩⟩)⟩
  · rintro ⟨mark, given, filled, -⟩
    exact filled (Option.some.inj given).symm
  · exact occurs_iff.1 (by decide)
  · decide

end Recipe
end Scaffold
