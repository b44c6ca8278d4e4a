import Scaffold.Proofs.Disk.Place
import Scaffold.Proofs.Naming.Location

/-! Which class files lie below the application directory. A name is accepted whatever its inner
segments are, so `..` may lead out of the directory, and segments that no path keeps may be
given without showing in the file. -/

namespace Scaffold
open Text Naming

namespace Disk

variable {names front : List Text} {place inner : Place} {name : Text}

/-- A step that does not lead out of where the walk began. -/
def stepWithin? (place : Place) (name : Text) : Option Place :=
  if name = parentName ∧ place = [] then none else some (step place name)

/-- The place that names lead to below the start of the walk, unless one of them leads out. -/
def descend? (names : List Text) : Option Place :=
  names.foldlM stepWithin? []

theorem descend?_concat (ne : name ≠ parentName) :
    descend? (names ++ [name]) = (descend? names).map (· ++ [name]) := by
  rw [descend?, List.foldlM_append, ← descend?]
  cases descend? names with
  | none => rfl
  | some place => simp [stepWithin?, step, ne]

theorem foldlM_stepWithin?_of_not_mem (h : parentName ∉ names) (place : Place) :
    names.foldlM stepWithin? place = some (place ++ names) := by
  induction names generalizing place with
  | nil => simp
  | cons name names ih =>
    rw [List.mem_cons, not_or] at h
    have first : stepWithin? place name = some (place ++ [name]) := by
      simp [stepWithin?, step, Ne.symm h.1]
    rw [List.foldlM_cons, first, Option.bind_eq_bind, Option.bind_some, ih h.2]
    simp

theorem descend?_of_not_mem (h : parentName ∉ names) : descend? names = some names :=
  foldlM_stepWithin?_of_not_mem h []

theorem isSome_descend?_of_prefix (h : (descend? names).isSome) (begins : front <+: names) :
    (descend? front).isSome := by
  obtain ⟨back, rfl⟩ := begins
  rw [descend?, List.foldlM_append, ← descend?] at h
  cases inside : descend? front with
  | none => simp [inside] at h
  | some place => rfl

theorem foldl_step_append (start : Place) (h : names.foldlM stepWithin? place = some inner) :
    names.foldl step (start ++ place) = start ++ inner := by
  induction names generalizing place with
  | nil =>
    rw [List.foldlM_nil, Option.pure_def, Option.some.injEq] at h
    rw [List.foldl_nil, h]
  | cons name names ih =>
    rw [List.foldlM_cons, Option.bind_eq_bind, Option.bind_eq_some_iff] at h
    obtain ⟨next, stepped, rest⟩ := h
    have same : step (start ++ place) name = start ++ next := by
      unfold stepWithin? at stepped
      split at stepped
      · simp at stepped
      · next within =>
        rw [Option.some.injEq] at stepped
        rw [← stepped]
        unfold step
        by_cases up : name = parentName
        · rw [if_pos up, if_pos up, List.dropLast_append_of_ne_nil fun nil => within ⟨up, nil⟩]
        · rw [if_neg up, if_neg up, List.append_assoc]
    rw [List.foldl_cons, same]
    exact ih rest

end Disk

namespace Layout

variable {layout : Layout} {relative : Text} {p : Path}

/-- The path lies strictly below the application directory: from there no beginning of it leads
out, and the whole leads to another place. -/
def Encloses (layout : Layout) (p : Path) : Prop :=
  ∃ names, p = layout.appRoot ++ (⟨.relative, names⟩ : Path) ∧
    (∀ front, front <+: names → (Disk.descend? front).isSome) ∧ Disk.descend? names ≠ some []

theorem Encloses.placeOf (h : layout.Encloses p) (d : Disk) :
    ∃ below, below ≠ [] ∧ d.placeOf p = d.placeOf layout.appRoot ++ below := by
  obtain ⟨names, rfl, inside, other⟩ := h
  obtain ⟨place, eq⟩ := Option.isSome_iff_exists.1 (inside names List.prefix_rfl)
  refine ⟨place, fun nil => other (nil ▸ eq), ?_⟩
  have walked := Disk.foldl_step_append (d.placeOf layout.appRoot) eq
  rw [List.append_nil] at walked
  rw [← walked, Disk.placeOf, Path.append_relative, List.foldl_append]
  rfl

theorem append_extension_ne (named : layout.extension ≠ ['.']) {part : Text}
    (filled : part ≠ []) : part ++ layout.extension ≠ Disk.parentName := by
  obtain ⟨c, part, rfl⟩ := List.exists_cons_of_ne_nil filled
  intro up
  have rest : part ++ layout.extension = ['.'] := (List.cons.inj up).2
  rcases List.append_eq_singleton_iff.1 rest with ⟨-, dot⟩ | ⟨-, none⟩
  · exact named dot
  · simpa [none] using layout.extension_dotted

theorem descend?_extended (named : layout.extension ≠ ['.']) {parts : List Text}
    (filled : ∀ part ∈ parts, Path.isPart part) :
    Disk.descend? (layout.extended parts) = (Disk.descend? parts.dropLast).map
      (· ++ [parts.getLastD ['.'] ++ layout.extension]) := by
  refine Disk.descend?_concat (append_extension_ne named ?_)
  rcases List.eq_nil_or_concat parts with rfl | ⟨front, last, rfl⟩
  · simp
  · rw [List.concat_eq_append, List.getLastD_concat]
    rintro rfl
    simpa [Path.isPart] using filled [] (by simp)

theorem encloses_pathOf_iff (named : layout.extension ≠ ['.']) (slash : '/' ∉ layout.extension)
    (free : '/' ∉ relative) :
    layout.Encloses (layout.pathOf (layout.root ++ relative)) ↔
      (Disk.descend? (layout.kept (layout.root ++ relative)).dropLast).isSome := by
  have walked := descend?_extended named
    fun part (mem : part ∈ layout.kept (layout.root ++ relative)) => (List.mem_filter.1 mem).2
  rw [pathOf_eq free slash]
  constructor
  · rintro ⟨names, eq, inside, -⟩
    rw [Path.append_relative, Path.append_relative, Path.mk.injEq, List.append_cancel_left_eq] at eq
    exact inside _ (eq.2 ▸ List.prefix_append _ _)
  · intro inside
    obtain ⟨place, eq⟩ := Option.isSome_iff_exists.1 inside
    rw [eq] at walked
    have whole : (Disk.descend? (layout.extended (layout.kept (layout.root ++ relative)))).isSome := by
      rw [walked]
      rfl
    exact ⟨_, rfl, fun front => Disk.isSome_descend?_of_prefix whole, by simp [walked]⟩

/-- By default the file of an accepted name is the segments that a path keeps, below the
application directory as long as `..` does not lead out of it, and two accepted names share
their file just where the same segments of both are kept. -/
theorem accepted_file (base : Path) {occupied : Text → Bool} {kind : Kind} {name q : Text}
    (accepted : ((standard base).qualifier occupied).qualify kind name = .ok q) :
    let layout := standard base
    (layout.Encloses (layout.pathOf q) ↔ (Disk.descend? (layout.kept q).dropLast).isSome) ∧
      (Disk.parentName ∉ (layout.kept q).dropLast → layout.Encloses (layout.pathOf q) ∧
        ∀ d : Disk, ∃ below, below ≠ [] ∧
          d.placeOf (layout.pathOf q) = d.placeOf layout.appRoot ++ below) ∧
      ∀ (occupied' : Text → Bool) (kind' : Kind) (name' q' : Text),
        (layout.qualifier occupied').qualify kind' name' = .ok q' →
        (layout.pathOf q' = layout.pathOf q ↔ layout.kept q' = layout.kept q) := by
  intro layout
  have named : layout.extension ≠ ['.'] := by
    show defaultExtension ≠ ['.']
    decide
  have slash : '/' ∉ layout.extension := by
    show '/' ∉ defaultExtension
    decide
  obtain ⟨relative, root, free⟩ := Qualifier.exists_root_append accepted
  obtain rfl : q = layout.root ++ relative := root
  have enclosed := encloses_pathOf_iff named slash free
  refine ⟨enclosed, fun level => ?_, fun occupied' kind' name' q' accepted' => ?_⟩
  · have inside : layout.Encloses (layout.pathOf (layout.root ++ relative)) := by
      rw [enclosed, Disk.descend?_of_not_mem level]
      rfl
    exact ⟨inside, inside.placeOf⟩
  · obtain ⟨other, root', free'⟩ := Qualifier.exists_root_append accepted'
    obtain rfl : q' = layout.root ++ other := root'
    exact pathOf_eq_pathOf_iff free' free

theorem accepted_file_inner_parent :
    let layout := standard ⟨.root, ["p".toList]⟩
    let q := "App\\Models\\Blog\\..\\.\\Post".toList
    (layout.qualifier fun _ => true).qualify .model " Blog/.././Post/".toList = .ok q ∧
      layout.Encloses (layout.pathOf q) ∧
      ∀ (occupied' : Text → Bool) (kind' : Kind) (name' q' : Text),
        (layout.qualifier occupied').qualify kind' name' = .ok q' →
        (layout.pathOf q' = layout.pathOf q ↔ layout.kept q' = layout.kept q) := by
  intro layout q
  have accepted : (layout.qualifier fun _ => true).qualify .model " Blog/.././Post/".toList =
      .ok q := rfl
  obtain ⟨enclosed, -, shared⟩ := accepted_file ⟨.root, ["p".toList]⟩ accepted
  exact ⟨accepted, enclosed.2 (by decide +kernel), shared⟩

/-- A name may lead out of the application directory, and two classes may have one file. -/
theorem accepted_outside :
    let layout := standard ⟨.root, ["p".toList]⟩
    let accepts (name q : String) :=
      (layout.qualifier fun _ => false).qualify .collection name.toList = .ok q.toList
    (accepts "../Foo" "App\\..\\Foo" ∧ ¬ layout.Encloses (layout.pathOf "App\\..\\Foo".toList)) ∧
      accepts "A//B" "App\\A\\\\B" ∧ accepts "A/B" "App\\A\\B" ∧
      layout.pathOf "App\\A\\\\B".toList = layout.pathOf "App\\A\\B".toList := by
  intro layout accepts
  refine ⟨⟨rfl, fun enclosed => ?_⟩, rfl, rfl, by decide +kernel⟩
  have named : layout.extension ≠ ['.'] := by decide
  have slash : '/' ∉ layout.extension := by decide
  have free : '/' ∉ "..\\Foo".toList := by decide
  have inside := (encloses_pathOf_iff named slash free).1 enclosed
  revert inside
  decide +kernel

end Layout
end Scaffold
