import Scaffold.Proofs.Disk.Write

/-! What a refused write leaves behind: directories, and at most the fresh file that was to take
the place of the target. The fresh file is where nothing was, and no path leads there unless it
ends in the very name that was chosen to be fresh. -/

namespace Scaffold

/-- The path ends in a name, and not in one that a fresh file for the target might get. -/
def Path.ClearOf (p target : Path) : Prop :=
  ∃ last, p.parts.getLast? = some last ∧
    ∀ d : Disk, last ≠ d.freshName (target.parts.getLast?.getD [])

namespace Disk

variable {d e after : Disk} {place directory : Place} {p target : Path} {t : Text}
  {content : Content} {hazard : Hazard} {fault : Fault}

theorem length_freshName (d : Disk) (avoided : Text) :
    avoided.length < (d.freshName avoided).length := by
  have listed := le_foldr_max_length (List.mem_cons_self (a := avoided) (l := d.entries.flatMap (·.1)))
  simp only [freshName, List.length_replicate]
  omega

/-- What a write that ended early may have made of the disk `d`. -/
inductive Abandoned (d : Disk) (target : Path) : Disk → Prop where
  | opened {e : Disk} (grown : d.Extends e) (same : e.fileAt? = d.fileAt?) : Abandoned d target e
  | begun {e : Disk} (grown : d.Extends e) (same : e.fileAt? = d.fileAt?) (directory : Place)
    (content : Content) :
    Abandoned d target (e.set (e.temporary directory target) (.file content))

theorem Abandoned.of_made (grown : d.Extends e) (same : e.fileAt? = d.fileAt?)
    (h : e.Abandoned target after) : d.Abandoned target after := by
  cases h with
  | opened grown' same' => exact .opened (grown.trans grown') (same'.trans same)
  | begun grown' same' directory content =>
    exact .begun (grown.trans grown') (same'.trans same) directory content

theorem replaceIn_abandoned (h : (d.replaceIn hazard directory target t).2 = .error fault) :
    d.Abandoned target (d.replaceIn hazard directory target t).1 := by
  have same : d.Abandoned target d := .opened (.refl d) rfl
  revert h
  simp only [replaceIn, erase_set_temporary]
  split_ifs with create writing sync mode null replace
  · exact fun _ => same
  · exact fun _ => .begun (.refl d) rfl directory _
  · exact fun _ => .begun (.refl d) rfl directory _
  · exact fun _ => same
  · exact fun _ => same
  · exact fun _ => same
  · split
    · exact fun _ => same
    · split_ifs with occupied
      · exact fun _ => same
      · intro h
        simp at h

theorem write_abandoned (h : (d.write hazard target t).2 = .error fault) :
    d.Abandoned target (d.write hazard target t).1 := by
  have made := makeFrom_extends d (d.start target.parent) target.parent.parts
  unfold write at h ⊢
  split_ifs at h ⊢ with null
  · exact .opened (.refl d) rfl
  split at h
  · next passed stops =>
    obtain ⟨grown, same⟩ := makeFrom_extends d (d.start target) (target.parent.parts.take passed)
    exact .opened grown same
  · split at h
    · next after result =>
      rw [makeDirectories] at result
      rw [result] at made
      exact .opened made.1 made.2
    · next after directory result =>
      rw [makeDirectories] at result
      rw [result] at made
      exact .of_made made.1 made.2 (replaceIn_abandoned h)

theorem Abandoned.extends (h : d.Abandoned target after) : d.Extends after := by
  cases h with
  | opened grown _ => exact grown
  | begun grown _ directory content =>
    exact grown.trans (extends_set_file (not_isDirectoryAt_temporary _ directory target))

theorem node?_eq_none (grown : d.Extends e) (files : (d.fileAt? place).isSome → (e.fileAt? place).isSome)
    (h : e.node? place = none) : d.node? place = none := by
  cases before : d.node? place with
  | none => rfl
  | some node =>
    cases node with
    | directory =>
      have there := grown.directory place (by simp [isDirectoryAt, before])
      simp [isDirectoryAt, h] at there
    | file content =>
      have there := files (by simp [fileAt?, before])
      simp [fileAt?, h] at there

theorem locate?_ne_temporary (clear : p.ClearOf target) (d : Disk) (directory : Place)
    (content : Content) :
    (d.set (d.temporary directory target) (.file content)).locate? p ≠
      some (d.temporary directory target) := by
  intro found
  obtain ⟨last, ends, fresh⟩ := clear
  obtain ⟨front, split⟩ := List.getLast?_eq_some_iff.1 ends
  obtain ⟨passes, place⟩ := locate?_eq_some_iff.1 found
  have inside := passes front last [] split
  rw [placeOf, split, List.foldl_append, List.foldl_cons, List.foldl_nil, step] at place
  generalize front.foldl step _ = reached at inside place
  split at place
  · -- the place stepped up from is a directory, so it is on the disk and holds no fresh name
    have open_ := isDirectoryAt_of_set_file (temporary_ne_nil d directory target) inside
    have below : d.temporary directory target <+: reached :=
      place ▸ List.dropLast_prefix reached
    rw [isDirectoryAt, node?, beq_iff_eq] at open_
    split at open_
    · next root =>
      rw [root, List.dropLast_nil] at place
      exact temporary_ne_nil d directory target place.symm
    · obtain ⟨front, back, entries, -⟩ := List.lookup_eq_some_iff.1 open_
      have listed : (reached, Node.directory) ∈ d.entries := by simp [entries]
      exact temporary_not_prefix directory target listed below
  · have same := List.append_inj_right' place rfl
    exact fresh d (List.singleton_inj.1 same)

theorem Abandoned.fileAt?_eq (h : d.Abandoned target after) (place : Place) :
    after.fileAt? place = d.fileAt? place ∨
      d.node? place = none ∧ ∀ p : Path, p.ClearOf target → after.locate? p ≠ some place := by
  cases h with
  | opened _ same => exact .inl (congrFun same place)
  -- the fresh file is the one place that differs, and no clear path leads to it
  | @begun e grown same directory content =>
    by_cases stray : place = e.temporary directory target
    · subst stray
      exact .inr ⟨node?_eq_none grown (by rw [same]; exact id) (node?_temporary ..),
        fun p clear => locate?_ne_temporary clear e directory content⟩
    · have ne := temporary_ne_nil e directory target
      rw [fileAt?_set_file ne, Function.update_of_ne stray, same]
      exact .inl rfl

end Disk
end Scaffold
