import Scaffold.Proofs.Disk.Write

/-! Writes into directories that are there. They change files only, so every path keeps its
place, and what is looked up elsewhere is found as before. -/

namespace Scaffold.Disk

variable {d e f : Disk} {place : Place} {p : Path}

theorem passes_append {front back : List Text} :
    d.Passes place (front ++ back) ↔
      d.Passes place front ∧ d.Passes (front.foldl step place) back := by
  induction front generalizing place with
  | nil => simp [passes_nil]
  | cons name front ih =>
    rw [List.cons_append, passes_cons, passes_cons, ih, List.foldl_cons, and_assoc]

theorem isDirectory_iff :
    d.isDirectory p ↔ d.Passes (d.start p) p.parts ∧ d.isDirectoryAt (d.placeOf p) := by
  unfold isDirectory at? isDirectoryAt
  cases found : d.locate? p with
  | none =>
    have closed : ¬ d.Passes (d.start p) p.parts := fun passes => by
      rw [locate?_eq_some_iff.2 ⟨passes, rfl⟩] at found
      simp at found
    simp [closed]
  | some target =>
    obtain ⟨passes, rfl⟩ := locate?_eq_some_iff.1 found
    simp [passes]

theorem isDirectory_of_append {origin : Origin} {front back : List Text}
    (h : d.isDirectory ⟨origin, front ++ back⟩) : d.isDirectory ⟨origin, front⟩ := by
  rw [isDirectory_iff] at h ⊢
  obtain ⟨passes, last⟩ := h
  rw [passes_append] at passes
  refine ⟨passes.1, ?_⟩
  cases back with
  | nil => simpa using last
  | cons name back => exact (passes_cons.1 passes.2).1

theorem node?_eq_ite (d : Disk) (place : Place) :
    d.node? place =
      if d.isDirectoryAt place then some .directory else (d.fileAt? place).map .file := by
  unfold isDirectoryAt fileAt?
  cases d.node? place with
  | none => simp
  | some node => cases node <;> simp

/-- The same directories, whatever the files. -/
structure SameTree (d e : Disk) : Prop where
  here : e.here = d.here
  directory : e.isDirectoryAt = d.isDirectoryAt

namespace SameTree

theorem refl (d : Disk) : d.SameTree d :=
  ⟨rfl, rfl⟩

theorem trans (first : d.SameTree e) (second : e.SameTree f) : d.SameTree f :=
  ⟨second.here.trans first.here, second.directory.trans first.directory⟩

theorem placeOf_eq (h : d.SameTree e) (p : Path) : e.placeOf p = d.placeOf p :=
  placeOf_eq_of_here h.here p

theorem passes_eq (h : d.SameTree e) : e.Passes = d.Passes := by
  funext place names
  simp only [Passes, h.directory]

theorem locate?_eq (h : d.SameTree e) (p : Path) : e.locate? p = d.locate? p := by
  apply Option.ext
  intro target
  rw [locate?_eq_some_iff, locate?_eq_some_iff, h.placeOf_eq, h.passes_eq, start, start, h.here]

theorem isDirectory_eq (h : d.SameTree e) (p : Path) : e.isDirectory p = d.isDirectory p := by
  rw [Bool.eq_iff_iff, isDirectory_iff, isDirectory_iff, h.placeOf_eq, h.passes_eq,
    h.directory, start, start, h.here]

theorem node?_eq (h : d.SameTree e) (same : e.fileAt? place = d.fileAt? place) :
    e.node? place = d.node? place := by
  rw [node?_eq_ite e, node?_eq_ite d, h.directory, same]

theorem at?_eq (h : d.SameTree e) (same : e.fileAt? (d.placeOf p) = d.fileAt? (d.placeOf p)) :
    e.at? p = d.at? p := by
  unfold at?
  rw [h.locate?_eq]
  cases found : d.locate? p with
  | none => rfl
  | some target =>
    obtain ⟨-, rfl⟩ := locate?_eq_some_iff.1 found
    exact h.node?_eq same

end SameTree

theorem sameTree_set_file {content : Content} (free : ¬ d.isDirectoryAt place) :
    d.SameTree (d.set place (.file content)) := by
  refine ⟨rfl, funext fun place => ?_⟩
  rw [Bool.eq_iff_iff]
  exact ⟨isDirectoryAt_of_set_file (ne_nil_of_not_isDirectoryAt free),
    (extends_set_file free).directory place⟩

/-- A write to the path needs nothing but the file itself. -/
structure Ready (d : Disk) (p : Path) : Prop where
  named : p.parts ≠ []
  clean : p.hasNull = false
  parent : d.isDirectory p.parent
  free : ¬ d.isDirectoryAt (d.placeOf p)

theorem SameTree.ready (h : d.SameTree e) (ready : d.Ready p) : e.Ready p := by
  refine ⟨ready.named, ready.clean, ?_, ?_⟩
  · rw [h.isDirectory_eq]
    exact ready.parent
  · rw [h.placeOf_eq, h.directory]
    exact ready.free

namespace Ready

theorem locate? (h : d.Ready p) : d.locate? p = some (d.placeOf p) := by
  obtain ⟨passes, last⟩ := isDirectory_iff.1 h.parent
  refine locate?_eq_some_iff.2 ⟨?_, rfl⟩
  rw [← List.dropLast_concat_getLast h.named, passes_append, passes_cons]
  exact ⟨passes, last, passes_nil _ _⟩

theorem makeDirectories (h : d.Ready p) :
    d.makeDirectories p.parent = (d, some (d.placeOf p.parent)) := by
  obtain ⟨passes, last⟩ := isDirectory_iff.1 h.parent
  exact makeFrom_eq_self passes last

theorem replaceIn (h : d.Ready p) (directory : Place) (t : Text) :
    d.replaceIn .calm directory p t = (d.set (d.placeOf p) (.file (.text t)), .ok ()) := by
  have fresh := not_isDirectoryAt_temporary d directory p
  have filled : d.Extends (d.set (d.temporary directory p) (.file (.text t))) :=
    extends_set_file fresh
  have found := filled.locate? h.locate?
  have vacant : ¬ (d.set (d.temporary directory p) (.file (.text t))).isDirectoryAt
      (d.placeOf p) := fun there =>
    h.free (isDirectoryAt_of_set_file (ne_nil_of_not_isDirectoryAt fresh) there)
  simp only [Disk.replaceIn, erase_set_temporary, Hazard.calm, found, h.clean, vacant,
    Bool.false_eq_true, Bool.or_self, if_false]

theorem write (h : d.Ready p) (t : Text) :
    d.write .calm p t = (d.set (d.placeOf p) (.file (.text t)), .ok ()) := by
  have above : ¬ p.parent.hasNull := by
    intro null
    have := hasNull_of_parent null
    simp [h.clean] at this
  rw [Disk.write, if_neg above, Hazard.stopsAfter?_calm, h.makeDirectories]
  exact h.replaceIn _ t

theorem sameTree_set (h : d.Ready p) (t : Text) :
    d.SameTree (d.set (d.placeOf p) (.file (.text t))) :=
  sameTree_set_file h.free

end Ready
end Scaffold.Disk
