import Scaffold.Composition.Recipe
import Scaffold.Noted
import Scaffold.Proofs.Source.Import
import Scaffold.Proofs.Source.Body
import Scaffold.Proofs.Text.Nesting

/-! A composition as an edit of the text it is made on: the missing imports go in where the first
namespace line ends, the block takes the place of the last closing brace, and all else stays. -/

namespace Scaffold
open Text Source

namespace Recipe

theorem inject_eq {t : Text} {marker : Option Text}
    (bare : ∀ mark ∈ marker, mark ≠ [] → isComposed mark t = false) (imports : List Text)
    (block : Text) (subject : Option Text) :
    inject imports block marker subject t = addImports imports t >>= appendToBody block := by
  match marker with
  | none => rfl
  | some [] => rfl
  | some (c :: rest) =>
    have unmarked := bare (c :: rest) rfl (by simp)
    simp [inject, ensureNotComposed, unmarked, bind, Except.bind]

theorem inject_of_composed {marker t : Text} (filled : marker ≠ []) (composed : marker <:+: t)
    (imports : List Text) (block : Text) (subject : Option Text) :
    inject imports block (some marker) subject t = .error (.alreadyComposed marker subject) := by
  obtain ⟨c, rest, rfl⟩ := List.exists_cons_of_ne_nil filled
  have marked : isComposed (c :: rest) t := occurs_iff.2 composed
  simp [inject, ensureNotComposed, marked, bind, Except.bind]

theorem exists_of_inject {t later : Text} {imports : List Text} {block : Text}
    {marker subject : Option Text} (h : inject imports block marker subject t = .ok later) :
    ∃ added, addImports imports t = .ok added ∧ appendToBody block added = .ok later := by
  rw [← bind_eq_ok, ← inject_eq _ imports block subject, h]
  rintro mark rfl filled
  rw [isComposed, ← Bool.not_eq_true, occurs_iff]
  intro composed
  rw [inject_of_composed filled composed] at h
  simp at h

/-- A composition puts statements of the missing imports, each once and in the order given, where
the first namespace line ends, and its block in the place of the last closing brace, which moves
to the end of the text; no other character is lost, moved or changed. -/
theorem inject_spliced {t : Text} (spaced : namespaceWord <:+: t) (braced : '\x7d' ∈ t)
    {names : List Text} (free : ∀ name ∈ names, '\x7d' ∉ name) {marker : Option Text}
    (bare : ∀ mark ∈ marker, ¬ mark <:+: t) (block : Text) (subject : Option Text) :
    ∃ lineEnd brace missing, FirstLineEnds namespaceWord t lineEnd ∧ LastAt '\x7d' t brace ∧
      (missing.Pairwise fun a b => names.idxOf a < names.idxOf b) ∧
      (∀ name, name ∈ missing ↔ name ∈ names ∧ ¬ Imported name t) ∧
      let lines := missing.map fun name => "use ".toList ++ name ++ [';']
      let added := if missing = [] then [] else "\n\n".toList ++ ['\n'].intercalate lines
      inject names block marker subject t =
        .ok (spliced lineEnd added brace block t ++ ['\x7d', '\n']) := by
  obtain ⟨cut, found⟩ := Needle.exists_find_literal (by decide) (occurs_iff.2 spaced)
  have ends := firstLineEnds_of_first? (Needle.find_eq_ok_iff.1 found)
  have text : cut.before ++ cut.line ++ cut.after = t := (Needle.at_of_find found).text
  have closed : '\x7d' ∉ importLines (missingImports t names) :=
    not_mem_importLines (by decide) fun name mem => free name (mem_missingImports.1 mem).1
  obtain ⟨brace, last, appended⟩ :=
    appendToBody_spliced (text ▸ braced) closed block
  rw [text] at last appended
  have member (name : Text) : name ∈ missingImports t names ↔ name ∈ names ∧ ¬ Imported name t := by
    rw [mem_missingImports, mem_imports_iff]
  have unmarked : ∀ mark ∈ marker, mark ≠ [] → isComposed mark t = false := by
    intro mark given _
    have absent := bare mark given
    rwa [← occurs_iff, Bool.not_eq_true] at absent
  refine ⟨_, brace, missingImports t names, ends, last, pairwise_missingImports t names, member, ?_⟩
  intro lines added
  have written : importLines (missingImports t names) = added := importLines_eq _
  rw [inject_eq unmarked, addImports_eq found, ← written]
  exact appended

theorem inject_spliced_one_line :
    let t := "use X;\n<?php namespace A \x7b class B \x7b \x7d \x7d // C\r\n".toList
    let names := ["Y".toList, "X".toList, "W".toList, "Y".toList]
    inject names "Z".toList (some collectionMarker) none t = .ok
      "use X;\n<?php namespace A \x7b class B \x7b \x7d Z // C\n\nuse Y;\nuse W;\r\n\x7d\n".toList ∧
    ∃ lineEnd brace missing, FirstLineEnds namespaceWord t lineEnd ∧ LastAt '\x7d' t brace ∧
      (missing.Pairwise fun a b => names.idxOf a < names.idxOf b) ∧
      (∀ name, name ∈ missing ↔ name ∈ names ∧ ¬ Imported name t) ∧
      let lines := missing.map fun name => "use ".toList ++ name ++ [';']
      let added := if missing = [] then [] else "\n\n".toList ++ ['\n'].intercalate lines
      inject names "Z".toList (some collectionMarker) none t =
        .ok (spliced lineEnd added brace "Z".toList t ++ ['\x7d', '\n']) := by
  intro t names
  have spaced : namespaceWord <:+: t := occurs_iff.1 (by decide)
  have bare : ∀ mark ∈ some collectionMarker, ¬ mark <:+: t := by
    intro mark given found
    have unmarked := occurs_iff.2 found
    rw [← Option.some.inj given] at unmarked
    exact absurd unmarked (by decide)
  exact ⟨rfl, inject_spliced spaced (by decide) (by decide) bare "Z".toList none⟩

theorem addImports_wellNested {t : Text} (nested : WellNested t) (spaced : namespaceWord <:+: t)
    {names : List Text} (free : ∀ name ∈ names, BraceFree name) :
    ∃ added, addImports names t = .ok added ∧ WellNested added ∧ ('\x7d' ∈ t → '\x7d' ∈ added) := by
  obtain ⟨cut, found⟩ := Needle.exists_find_literal (by decide) (occurs_iff.2 spaced)
  have text : cut.before ++ cut.line ++ cut.after = t := (Needle.at_of_find found).text
  have given : ∀ name ∈ missingImports t names, BraceFree name :=
    fun name mem => free name (mem_missingImports.1 mem).1
  have part : BraceFree (importLines (missingImports t names)) :=
    ⟨not_mem_importLines (by decide) fun name mem => (given name mem).opens,
      not_mem_importLines (by decide) fun name mem => (given name mem).closes⟩
  refine ⟨_, addImports_eq found names, .insert (text ▸ nested) part, fun braced => ?_⟩
  rw [← text] at braced
  simp only [List.mem_append] at braced ⊢
  exact braced.imp_left .inl

/-- A composition of a well nested text is well nested. Its block stands directly inside the last
body of the outermost level, behind all that this body held before. -/
theorem inject_wellNested {t : Text} (nested : WellNested t) (spaced : namespaceWord <:+: t)
    (braced : '\x7d' ∈ t) {names : List Text} (free : ∀ name ∈ names, BraceFree name)
    {marker : Option Text} (bare : ∀ mark ∈ marker, mark ≠ [] → ¬ mark <:+: t) {block : Text}
    (inner : WellNested block) (subject : Option Text) :
    ∃ outer body tail,
      addImports names t = .ok (outer ++ '\x7b' :: body ++ '\x7d' :: tail) ∧
      WellNested outer ∧ WellNested body ∧ BraceFree tail ∧
      inject names block marker subject t =
        .ok (outer ++ '\x7b' :: body ++ block ++ tail ++ ['\x7d', '\n']) ∧
      depth (outer ++ '\x7b' :: body) = 1 ∧
      WellNested (outer ++ '\x7b' :: body ++ block ++ tail ++ ['\x7d', '\n']) := by
  obtain ⟨added, addition, nested', braced'⟩ := addImports_wellNested nested spaced free
  obtain ⟨outer, body, tail, rfl, below, within, last⟩ := nested'.exists_last_body (braced' braced)
  have unmarked : ∀ mark ∈ marker, mark ≠ [] → isComposed mark t = false := by
    intro mark given filled
    have absent := bare mark given filled
    rwa [← occurs_iff, Bool.not_eq_true] at absent
  refine ⟨outer, body, tail, addition, below, within, last, ?_, ?_, ?_⟩
  · rw [inject_eq unmarked, addition]
    exact appendToBody_eq last.closes block _
  · simp [below.closed, within.closed, braceStep]
  · have held : WellNested (body ++ block ++ tail) :=
      (within.append inner).append (.of_braceFree last)
    have ended : WellNested ['\n'] := .of_braceFree ⟨by decide, by decide⟩
    have whole := (below.append held.enclosed).append ended
    simpa using whole

theorem inject_wellNested_two_bodies :
    let t := "interface B \x7b \x7d class A \x7b f() \x7b \x7d \x7d // namespace".toList
    ∃ outer body tail,
      addImports ["N".toList] t = .ok (outer ++ '\x7b' :: body ++ '\x7d' :: tail) ∧
      WellNested outer ∧ WellNested body ∧ BraceFree tail ∧
      inject ["N".toList] "g() \x7b\x7d".toList (some collectionMarker) none t =
        .ok (outer ++ '\x7b' :: body ++ "g() \x7b\x7d".toList ++ tail ++ ['\x7d', '\n']) ∧
      depth (outer ++ '\x7b' :: body) = 1 ∧
      WellNested (outer ++ '\x7b' :: body ++ "g() \x7b\x7d".toList ++ tail ++ ['\x7d', '\n']) :=
  inject_wellNested (by decide) (occurs_iff.1 (by decide)) (by decide)
    (by
      intro name mem
      rw [List.mem_singleton.1 mem]
      exact ⟨by decide, by decide⟩)
    (by
      intro mark given _ found
      have unmarked := occurs_iff.2 found
      rw [← Option.some.inj given] at unmarked
      exact absurd unmarked (by decide))
    (by decide) none

end Recipe
end Scaffold
