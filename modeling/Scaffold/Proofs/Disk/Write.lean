import Mathlib.Tactic.SplitIfs
import Scaffold.Disk.Write
import Scaffold.Proofs.Disk.Place

/-! What one write does to the files. The fresh file leaves no trace once it is gone, since its
name is longer than every name on the disk; a write that goes through changes one place, and a
refused one that is not the file system's doing changes no file. -/

namespace Scaffold.Disk

variable {d : Disk} {place target : Place} {p : Path} {t : Text}

theorem le_foldr_max_length {name : Text} {names : List Text} (h : name ∈ names) :
    name.length ≤ names.foldr (fun name n => max name.length n) 0 := by
  induction names with
  | nil => simp at h
  | cons head rest ih =>
    rw [List.foldr_cons]
    rcases List.mem_cons.1 h with rfl | h
    · exact Nat.le_max_left _ _
    · exact Nat.le_trans (ih h) (Nat.le_max_right _ _)

theorem freshName_not_mem {avoided : Text} {entry : Place × Node} (h : entry ∈ d.entries) :
    d.freshName avoided ∉ entry.1 := by
  intro inside
  have listed : d.freshName avoided ∈ avoided :: d.entries.flatMap (·.1) :=
    List.mem_cons_of_mem _ (List.mem_flatMap.2 ⟨entry, h, inside⟩)
  have longer := le_foldr_max_length listed
  have length : (d.freshName avoided).length =
      (avoided :: d.entries.flatMap (·.1)).foldr (fun name n => max name.length n) 0 + 1 := by
    simp [freshName]
  omega

theorem temporary_ne_nil (d : Disk) (directory : Place) (p : Path) :
    d.temporary directory p ≠ [] := by
  simp [temporary]

theorem temporary_not_prefix (directory : Place) (p : Path) {entry : Place × Node}
    (h : entry ∈ d.entries) : ¬ d.temporary directory p <+: entry.1 := by
  intro front
  have inside : d.freshName (p.parts.getLast?.getD []) ∈ entry.1 :=
    front.subset (by simp [temporary])
  exact freshName_not_mem h inside

theorem ne_temporary (directory : Place) (p : Path) {entry : Place × Node}
    (h : entry ∈ d.entries) : entry.1 ≠ d.temporary directory p := by
  intro same
  exact temporary_not_prefix directory p h (same ▸ List.prefix_rfl)

theorem erase_set_temporary (d : Disk) (directory : Place) (p : Path) (node : Node) :
    (d.set (d.temporary directory p) node).erase (d.temporary directory p) = d := by
  have others : ∀ entry ∈ d.entries, decide (entry.1 ≠ d.temporary directory p) = true :=
    fun entry mem => decide_eq_true (ne_temporary directory p mem)
  have kept : ∀ entry ∈ d.entries, (!(d.temporary directory p).isPrefixOf entry.1) = true := by
    intro entry mem
    rw [Bool.not_eq_true', Bool.eq_false_iff, ne_eq, List.isPrefixOf_iff_prefix]
    exact temporary_not_prefix directory p mem
  unfold erase set
  rw [List.filter_cons_of_neg (by simp), List.filter_eq_self.2 others,
    List.filter_eq_self.2 kept]

theorem node?_temporary (d : Disk) (directory : Place) (p : Path) :
    d.node? (d.temporary directory p) = none := by
  rw [node?, if_neg (temporary_ne_nil d directory p)]
  refine List.lookup_eq_none_iff.2 fun entry mem => ?_
  simpa using (ne_temporary directory p mem).symm

theorem makeFrom_extends (d : Disk) (place : Place) (names : List Text) :
    d.Extends (d.makeFrom place names).1 ∧ (d.makeFrom place names).1.fileAt? = d.fileAt? := by
  induction names generalizing d place with
  | nil => exact ⟨.refl d, rfl⟩
  | cons name rest ih =>
    rw [makeFrom]
    cases found : d.node? (step place name) with
    | none =>
      have first := extends_set_directory found
      have others := ih (d.set (step place name) .directory) (step place name)
      exact ⟨first.1.trans others.1, others.2.trans first.2⟩
    | some node =>
      cases node with
      | directory => exact ih d (step place name)
      | file content => exact ⟨.refl d, rfl⟩

theorem makeFrom_eq_self {names : List Text} (passes : d.Passes place names)
    (last : d.isDirectoryAt (names.foldl step place)) :
    d.makeFrom place names = (d, some (names.foldl step place)) := by
  induction names generalizing place with
  | nil => rfl
  | cons name rest ih =>
    obtain ⟨-, others⟩ := passes_cons.1 passes
    have next : d.node? (step place name) = some .directory := by
      cases rest with
      | nil => simpa [isDirectoryAt] using last
      | cons second rest => simpa [isDirectoryAt] using (passes_cons.1 others).1
    rw [makeFrom, next]
    exact ih others last

/-- What one write may do to the disk `d`: directories stay; once it is through, one place is
changed; and where it ends early, that is the file system's doing or changes no file. -/
structure WriteEffect (d : Disk) (p : Path) (t : Text) (run : Disk × Except Fault Unit) :
    Prop where
  grown : d.Extends run.1
  of_ok : run.2 = .ok () → p.hasNull = false ∧ run.1.locate? p = some (d.placeOf p) ∧
    run.1.fileAt? = Function.update d.fileAt? (d.placeOf p) (some (.text t))
  of_error : ∀ fault, run.2 = .error fault → fault = .system ∨
    fault = .nullInName ∧ p.hasNull ∧ run.1.fileAt? = d.fileAt?

namespace WriteEffect

variable {after : Disk}

theorem refused (h : d.Extends after) : d.WriteEffect p t (after, .error .system) := by
  refine ⟨h, fun eq => by simp at eq, fun fault eq => .inl ?_⟩
  simpa using eq.symm

theorem stopped (h : d.Extends after) (null : p.hasNull) (same : after.fileAt? = d.fileAt?) :
    d.WriteEffect p t (after, .error .nullInName) := by
  refine ⟨h, fun eq => by simp at eq, fun fault eq => .inr ⟨?_, null, same⟩⟩
  simpa using eq.symm

theorem of_made {made : Disk} {run : Disk × Except Fault Unit} (grown : d.Extends made)
    (same : made.fileAt? = d.fileAt?) (h : made.WriteEffect p t run) : d.WriteEffect p t run := by
  refine ⟨grown.trans h.grown, fun eq => ?_, fun fault eq => ?_⟩
  · simpa [grown.placeOf_eq, same] using h.of_ok eq
  · simpa [same] using h.of_error fault eq

theorem landed {fresh : Place} {content : Content} (away : ¬ d.isDirectoryAt fresh)
    (null : p.hasNull = false) (found : (d.set fresh (.file content)).locate? p = some target)
    (free : ¬ (d.set fresh (.file content)).isDirectoryAt target) :
    d.WriteEffect p t (d.set target (.file (.text t)), .ok ()) := by
  have filled : d.Extends (d.set fresh (.file content)) := extends_set_file away
  have vacant : ¬ d.isDirectoryAt target := fun h => free (filled.directory target h)
  have final : d.Extends (d.set target (.file (.text t))) := extends_set_file vacant
  have later : (d.set fresh (.file content)).Extends (d.set target (.file (.text t))) := by
    refine ⟨rfl, fun place directory => final.directory place ?_⟩
    exact isDirectoryAt_of_set_file (ne_nil_of_not_isDirectoryAt away) directory
  have place : d.placeOf p = target := by
    rw [← filled.placeOf_eq]
    exact (locate?_eq_some_iff.1 found).2
  refine ⟨final, fun _ => ⟨null, ?_, ?_⟩, fun fault eq => by simp at eq⟩
  · rw [place]
    exact later.locate? found
  · rw [place]
    exact fileAt?_set_file (ne_nil_of_not_isDirectoryAt vacant)

end WriteEffect

theorem not_isDirectoryAt_temporary (d : Disk) (directory : Place) (p : Path) :
    ¬ d.isDirectoryAt (d.temporary directory p) := by
  simp [isDirectoryAt, node?_temporary]

theorem replaceIn_effect (d : Disk) (hazard : Hazard) (directory : Place) (p : Path) (t : Text) :
    d.WriteEffect p t (d.replaceIn hazard directory p t) := by
  have fresh := not_isDirectoryAt_temporary d directory p
  simp only [replaceIn, erase_set_temporary]
  split_ifs with create writing sync mode null replace
  · exact .refused (.refl d)
  · exact .refused (extends_set_file fresh)
  · exact .refused (extends_set_file fresh)
  · exact .refused (.refl d)
  · exact .stopped (.refl d) null rfl
  · exact .refused (.refl d)
  · split
    · exact .refused (.refl d)
    · next target found =>
      split_ifs with occupied
      · exact .refused (.refl d)
      · exact .landed fresh (Bool.eq_false_iff.2 null) found occupied

theorem hasNull_of_parent (h : p.parent.hasNull) : p.hasNull := by
  simp only [Path.hasNull, Path.parent, List.any_eq_true] at h ⊢
  obtain ⟨name, mem, null⟩ := h
  exact ⟨name, List.dropLast_subset _ mem, null⟩

theorem write_effect (d : Disk) (hazard : Hazard) (p : Path) (t : Text) :
    d.WriteEffect p t (d.write hazard p t) := by
  have made := makeFrom_extends d (d.start p.parent) p.parent.parts
  unfold write
  split_ifs with null
  · exact .stopped (.refl d) (hasNull_of_parent null) rfl
  -- stopped on the way, refused by what is there, or arrived at the directory
  split
  · exact .refused (makeFrom_extends d _ _).1
  · split
    · next after result =>
      rw [makeDirectories] at result
      rw [result] at made
      exact .refused made.1
    · next after directory result =>
      rw [makeDirectories] at result
      rw [result] at made
      exact .of_made made.1 made.2 (replaceIn_effect after hazard directory p t)

end Scaffold.Disk
