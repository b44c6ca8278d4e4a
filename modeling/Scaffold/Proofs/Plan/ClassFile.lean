import Scaffold.Plan.Basic
import Scaffold.Proofs.Disk.Tree
import Scaffold.Proofs.Naming.Location
import Scaffold.Proofs.Naming.Studly

/-! Where the file of a plain class name goes on the disk. The last segment shows in the place,
so classes of different last segments have different files, and the directory of a class that
the qualifier has placed is there as soon as the application directory is. -/

namespace Scaffold
open Text Naming

namespace Layout

variable {layout : Layout} {d : Disk} {relative other : Text}

theorem placeOf_pathOf (d : Disk) (h : Plain relative) (slash : '/' ∉ layout.extension) :
    ∃ front, d.placeOf (layout.pathOf (layout.root ++ relative)) =
      front ++ [lastSegment relative ++ layout.extension] := by
  have named : lastSegment relative ++ layout.extension ≠ Disk.parentName := by
    obtain ⟨filled, plain⟩ := h.lastSegment
    cases last : lastSegment relative with
    | nil => exact absurd last filled
    | cons c rest =>
      have dot := (apart_of_isPlainChar (plain c (by simp [last]))).2.2.1
      simp [Disk.parentName, dot]
  rw [Disk.placeOf, pathOf_root_append h slash, ← List.append_assoc]
  dsimp only
  rw [List.foldl_append, List.foldl_cons, List.foldl_nil, Disk.step, if_neg named]
  exact ⟨_, rfl⟩

theorem placeOf_pathOf_ne (d : Disk) (h : Plain relative) (h' : Plain other)
    (slash : '/' ∉ layout.extension) (ne : lastSegment relative ≠ lastSegment other) :
    d.placeOf (layout.pathOf (layout.root ++ relative)) ≠
      d.placeOf (layout.pathOf (layout.root ++ other)) := by
  obtain ⟨front, first⟩ := placeOf_pathOf d h slash
  obtain ⟨front', second⟩ := placeOf_pathOf d h' slash
  rw [first, second]
  intro same
  have last := List.append_inj_right' same rfl
  rw [List.cons.injEq, List.append_cancel_right_eq] at last
  exact ne last.1

theorem parts_pathOf_ne_nil (h : Plain relative) (slash : '/' ∉ layout.extension) :
    (layout.pathOf (layout.root ++ relative)).parts ≠ [] := by
  rw [pathOf_root_append h slash]
  simp

theorem parent_pathOf (h : Plain relative) (slash : '/' ∉ layout.extension) :
    (layout.pathOf (layout.root ++ relative)).parent =
      ⟨layout.appRoot.origin, layout.appRoot.parts ++ (relative.splitOn '\\').dropLast⟩ := by
  rw [pathOf_root_append h slash, Path.parent, ← List.append_assoc, List.dropLast_concat]

theorem isDirectory_appRoot (h : Plain relative) (slash : '/' ∉ layout.extension)
    (parent : d.isDirectory (layout.pathOf (layout.root ++ relative)).parent) :
    d.isDirectory layout.appRoot := by
  rw [parent_pathOf h slash] at parent
  exact Disk.isDirectory_of_append parent

end Layout

namespace Site

variable {s : Site} {name : Text}

theorem plain_partNames (h : PlainSegment name) :
    PlainSegment (collectionNameFor (studly name)) ∧
      PlainSegment (queryBuilderNameFor (studly name)) :=
  ⟨plainSegment_append h.studly_alphanum (by decide) (by decide),
    plainSegment_append h.studly_alphanum (by decide) (by decide)⟩

theorem names_apart (name : Text) :
    name ≠ collectionNameFor (studly name) ∧ name ≠ queryBuilderNameFor (studly name) ∧
      collectionNameFor (studly name) ≠ queryBuilderNameFor (studly name) := by
  refine ⟨ne_studly_append (by decide) (by decide +kernel),
    ne_studly_append (by decide) (by decide +kernel), ?_⟩
  rw [collectionNameFor, queryBuilderNameFor, ne_eq, List.append_cancel_left_eq]
  decide

theorem exists_selected (h : PlainSegment name) (slash : '/' ∉ s.layout.extension)
    (app : s.disk.isDirectory s.layout.appRoot) (kind : Kind) :
    ∃ relative, s.qualifier.qualify kind name = .ok (s.layout.root ++ relative) ∧
      Plain relative ∧ lastSegment relative = name ∧
      s.disk.isDirectory (s.layout.pathOf (s.layout.root ++ relative)).parent := by
  have plain := h.toPlain
  have single := List.splitOn_eq_singleton h.not_mem_separator
  have last := lastSegment_of_not_mem h.not_mem_separator
  rw [Qualifier.qualify_segment h]
  rcases s.qualifier.selector_eq kind with same | ⟨occupied, below⟩
  · refine ⟨name, ?_, plain, last, ?_⟩
    · rw [same, Layout.root, List.append_assoc]
      rfl
    · rw [Layout.parent_pathOf plain slash, single]
      simpa using app
  · have segment := Qualifier.plain_segment kind
    have both := plain_append_iff.2 ⟨segment.toPlain, plain⟩
    refine ⟨kind.segment ++ '\\' :: name, ?_, both, ?_, ?_⟩
    · rw [below, Layout.root, List.append_assoc, List.append_assoc]
      rfl
    · rw [lastSegment_append, last]
    · rw [Layout.parent_pathOf both slash, List.splitOn_append_cons_self, single,
        List.splitOn_eq_singleton segment.not_mem_separator]
      have there : s.disk.isDirectory (s.layout.segmentPath kind.segment) := occupied
      rwa [Layout.segmentPath_eq _ segment] at there

end Site
end Scaffold
