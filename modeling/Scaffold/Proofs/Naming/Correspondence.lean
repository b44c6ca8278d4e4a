import Scaffold.Proofs.Naming.Location

/-! Names and files, one to one. A name of solid segments is found again from its file: the
slashes become separators, the extension goes and the root comes in front. So no two such names
share a file unless they are qualified to the same class. -/

namespace Scaffold
open Text Naming

theorem Naming.backslashed_intercalate {segments : List Text} (free : ∀ t ∈ segments, '/' ∉ t) :
    backslashed (['/'].intercalate segments) = ['\\'].intercalate segments := by
  induction segments with
  | nil => rfl
  | cons segment rest ih =>
    have first := backslashed_eq_self (free segment (by simp))
    have others := ih fun t mem => free t (List.mem_cons_of_mem _ mem)
    by_cases more : rest = []
    · simpa [more] using first
    · rw [List.intercalate_cons_of_ne_nil more, List.intercalate_cons_of_ne_nil more, ← others,
        backslashed_append, backslashed_append, first]
      rfl

namespace Layout

variable {layout : Layout} {relative other name q : Text}

/-- The class whose file below the application directory is the given one. -/
def classOf? (layout : Layout) (file : Text) : Option Text :=
  (before? layout.extension (backslashed file)).map (layout.root ++ ·)

theorem relativePath_solid (each : EachSegment SolidSegment relative) :
    layout.relativePath (layout.root ++ relative) =
      ['/'].intercalate (relative.splitOn '\\') ++ layout.extension := by
  rw [relativePath_eq each.not_mem_slash, extended_kept fun t mem => (each t mem).part,
    ← Path.intercalate_concat_append, ← splitOn_eq_concat]

theorem classOf?_relativePath (each : EachSegment SolidSegment relative)
    (slash : '/' ∉ layout.extension) :
    layout.classOf? (layout.relativePath (layout.root ++ relative)) =
      some (layout.root ++ relative) := by
  have stem : backslashed (['/'].intercalate (relative.splitOn '\\')) = relative := by
    rw [backslashed_intercalate fun t mem => (each t mem).single.2, List.intercalate_splitOn]
  have whole : backslashed (layout.relativePath (layout.root ++ relative)) =
      relative ++ layout.extension := by
    rw [relativePath_solid each, backslashed_append, stem, backslashed_eq_self slash]
  rw [classOf?, whole, before?, List.reverse_append, after?_append]
  simp

/-- A class name cut in two places: behind the root namespace, with what follows giving the file,
and in front of the class itself. -/
structure Corresponds (layout : Layout) (q relative : Text) : Prop where
  rooted : q = layout.root ++ relative
  cut : q = namespaceOf q ++ '\\' :: basename q
  last : basename q = lastSegment q
  file : layout.relativePath q = ['/'].intercalate (relative.splitOn '\\') ++ layout.extension
  back : layout.classOf? (layout.relativePath q) = some q

theorem corresponds_root_append (each : EachSegment SolidSegment relative)
    (slash : '/' ∉ layout.extension) : layout.Corresponds (layout.root ++ relative) relative := by
  have whole : layout.root ++ relative = layout.space ++ '\\' :: relative := by simp [root]
  have read : backslashed (layout.root ++ relative) =
      backslashed layout.space ++ '\\' :: relative := by
    rw [root, backslashed_append, backslashed_append, backslashed_eq_self each.not_mem_slash,
      List.append_assoc]
    rfl
  have last : basename (layout.root ++ relative) = lastSegment (layout.root ++ relative) := by
    have ended := trimEnd_append each.filled each.trimEnd_eq (backslashed layout.space ++ ['\\'])
    rw [List.append_assoc, List.singleton_append] at ended
    rw [basename, read, ended, whole, lastSegment_append, lastSegment_append]
  refine ⟨rfl, ?_, last, relativePath_solid each, classOf?_relativePath each slash⟩
  rw [last, whole, namespaceOf_lastSegment]

theorem eq_of_pathOf_eq (each : EachSegment SolidSegment relative)
    (each' : EachSegment SolidSegment other) (slash : '/' ∉ layout.extension)
    (same : layout.pathOf (layout.root ++ other) = layout.pathOf (layout.root ++ relative)) :
    layout.root ++ other = layout.root ++ relative := by
  have kept := (pathOf_eq_pathOf_iff each'.not_mem_slash each.not_mem_slash).1 same
  have files : layout.relativePath (layout.root ++ other) =
      layout.relativePath (layout.root ++ relative) := by
    rw [relativePath_eq each'.not_mem_slash, relativePath_eq each.not_mem_slash, kept]
  have back := congrArg layout.classOf? files
  rw [classOf?_relativePath each' slash, classOf?_relativePath each slash] at back
  exact Option.some.inj back

theorem exists_solid (solid : SolidGiven name) {occupied : Text → Bool} {kind : Kind}
    (known : (layout.qualifier occupied).qualify kind name = .ok q) :
    ∃ relative, q = layout.root ++ relative ∧ EachSegment SolidSegment relative := by
  have customary : ∀ kind : Kind, SolidSegment kind.segment :=
    fun kind => (Qualifier.plain_segment kind).solid
  obtain ⟨relative, root, each, -⟩ :=
    Qualifier.exists_relative_of_each solid solid customary known
  exact ⟨relative, root, each⟩

/-- No other class that a name of solid segments may stand for has the same file. -/
def OwnsFile (layout : Layout) (q : Text) : Prop :=
  ∀ (occupied : Text → Bool) (kind : Kind) (name other : Text), SolidGiven name →
    (layout.qualifier occupied).qualify kind name = .ok other →
    layout.pathOf other = layout.pathOf q → other = q

/-- Every name of solid segments has a class, and the class has its namespace, its base name and
its file by one and the same cut of the name. No other class has that file. -/
theorem classes_one_to_one (layout : Layout) (slash : '/' ∉ layout.extension)
    (occupied : Text → Bool) (kind : Kind) {name : Text} (solid : SolidGiven name) :
    ∃ q relative, (layout.qualifier occupied).qualify kind name = .ok q ∧
      layout.Corresponds q relative ∧ layout.OwnsFile q := by
  have known := Qualifier.qualify_given (q := layout.qualifier occupied) solid kind
  obtain ⟨relative, root, each⟩ := exists_solid solid known
  rw [root] at known
  refine ⟨_, relative, known, corresponds_root_append each slash, ?_⟩
  intro occupied' kind' name' other solid' known' same
  obtain ⟨relative', rfl, each'⟩ := exists_solid solid' known'
  exact eq_of_pathOf_eq each each' slash same

theorem classes_one_to_one_repeated_root :
    let layout := Layout.standard ⟨.root, ["p".toList]⟩
    let name := "App/App\\My Post.v2".toList
    SolidGiven name ∧ ∃ q relative,
      (layout.qualifier fun _ => true).qualify .model name = .ok q ∧
        layout.Corresponds q relative ∧ layout.OwnsFile q :=
  ⟨by decide +kernel, classes_one_to_one _ (by decide +kernel) _ _ (by decide +kernel)⟩

end Layout
end Scaffold
