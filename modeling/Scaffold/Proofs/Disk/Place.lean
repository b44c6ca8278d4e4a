import Mathlib.Logic.Function.Basic
import Scaffold.Disk.Difference

/-! Where a path leads. The place itself is a matter of the names alone; what is on the disk
only decides whether the way there is open, and a disk with more directories opens more. -/

namespace Scaffold.Disk

variable {d e f : Disk} {place target : Place} {p : Path}

/-- The place that the names of a path spell out, whatever stands on the way. -/
def placeOf (d : Disk) (p : Path) : Place :=
  p.parts.foldl step (d.start p)

/-- Every place that the names pass is a directory. -/
def Passes (d : Disk) (place : Place) (names : List Text) : Prop :=
  ∀ front name back, names = front ++ name :: back → d.isDirectoryAt (front.foldl step place)

theorem passes_nil (d : Disk) (place : Place) : d.Passes place [] := by
  intro front name back eq
  simp at eq

theorem passes_cons {name : Text} {names : List Text} :
    d.Passes place (name :: names) ↔
      d.isDirectoryAt place ∧ d.Passes (step place name) names := by
  constructor
  · intro h
    refine ⟨h [] name names rfl, fun front other back eq => ?_⟩
    exact h (name :: front) other back (by rw [eq, List.cons_append])
  · rintro ⟨first, others⟩ front other back eq
    cases front with
    | nil => exact first
    | cons head front =>
      simp only [List.cons_append, List.cons.injEq] at eq
      rw [List.foldl_cons, ← eq.1]
      exact others front other back eq.2

theorem locate?_eq_some_iff :
    d.locate? p = some target ↔ d.Passes (d.start p) p.parts ∧ d.placeOf p = target := by
  unfold locate? placeOf
  generalize d.start p = place
  induction p.parts generalizing place with
  | nil => simp [passes_nil]
  | cons name names ih =>
    rw [List.foldlM_cons, List.foldl_cons, passes_cons]
    by_cases open_ : d.isDirectoryAt place
    · simp [open_, ih]
    · simp [open_]

theorem placeOf_eq_of_here (h : e.here = d.here) (p : Path) : e.placeOf p = d.placeOf p := by
  simp only [placeOf, start, h]

/-- The same current directory, and every directory still one. -/
structure Extends (d e : Disk) : Prop where
  here : e.here = d.here
  directory : ∀ place, d.isDirectoryAt place → e.isDirectoryAt place

namespace Extends

theorem refl (d : Disk) : d.Extends d :=
  ⟨rfl, fun _ h => h⟩

theorem trans (first : d.Extends e) (second : e.Extends f) : d.Extends f :=
  ⟨second.here.trans first.here, fun place h => second.directory place (first.directory place h)⟩

theorem placeOf_eq (h : d.Extends e) (p : Path) : e.placeOf p = d.placeOf p :=
  placeOf_eq_of_here h.here p

theorem locate? (h : d.Extends e) (found : d.locate? p = some target) :
    e.locate? p = some target := by
  obtain ⟨passes, eq⟩ := locate?_eq_some_iff.1 found
  refine locate?_eq_some_iff.2 ⟨fun front name back split => ?_, (h.placeOf_eq p).trans eq⟩
  rw [start, h.here]
  exact h.directory _ (passes front name back split)

theorem isDirectory (h : d.Extends e) (there : d.isDirectory p) : e.isDirectory p := by
  unfold Disk.isDirectory at? at there ⊢
  cases found : d.locate? p with
  | none => simp [found] at there
  | some target =>
    rw [found] at there
    rw [h.locate? found]
    exact h.directory target there

end Extends

theorem fileAt?_eq_some_iff {content : Content} :
    d.fileAt? place = some content ↔ d.node? place = some (.file content) := by
  unfold fileAt?
  split <;> simp_all

theorem holds_of_isFile (h : d.isFile p) : d.holds p := by
  unfold isFile file? at h
  unfold holds
  split at h
  · next content found => simp [found]
  · simp at h

theorem file?_eq_bind (d : Disk) (p : Path) : d.file? p = (d.locate? p).bind d.fileAt? := by
  unfold file? at?
  cases d.locate? p <;> rfl

theorem isFile_iff :
    d.isFile p ↔ ∃ target, d.locate? p = some target ∧ (d.fileAt? target).isSome := by
  rw [isFile, file?_eq_bind]
  cases d.locate? p <;> simp

theorem ne_nil_of_not_isDirectoryAt (h : ¬ d.isDirectoryAt place) : place ≠ [] := by
  rintro rfl
  exact h (by simp [isDirectoryAt])

theorem extends_set_file {content : Content} (h : ¬ d.isDirectoryAt place) :
    d.Extends (d.set place (.file content)) := by
  refine ⟨rfl, fun other directory => ?_⟩
  have ne : other ≠ place := by
    rintro rfl
    exact h directory
  rw [isDirectoryAt, node?_set (ne_nil_of_not_isDirectoryAt h), if_neg ne]
  exact directory

theorem isDirectoryAt_of_set_file {content : Content} (ne : place ≠ [])
    (h : (d.set place (.file content)).isDirectoryAt target) : d.isDirectoryAt target := by
  rw [isDirectoryAt, node?_set ne] at h
  split at h
  · simp at h
  · exact h

theorem fileAt?_set_file {content : Content} (ne : place ≠ []) :
    (d.set place (.file content)).fileAt? = Function.update d.fileAt? place (some content) := by
  funext other
  by_cases same : other = place
  · subst same
    simp [fileAt?, node?_set ne]
  · simp [fileAt?, node?_set ne, same]

theorem extends_set_directory (h : d.node? place = none) :
    d.Extends (d.set place .directory) ∧ (d.set place .directory).fileAt? = d.fileAt? := by
  have ne : place ≠ [] := by
    rintro rfl
    simp at h
  refine ⟨⟨rfl, fun other directory => ?_⟩, funext fun other => ?_⟩
  · by_cases same : other = place <;> simp_all [isDirectoryAt, node?_set]
  · by_cases same : other = place <;> simp_all [fileAt?, node?_set]

end Scaffold.Disk
