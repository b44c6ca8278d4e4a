import Mathlib.Data.List.TakeWhile
import Scaffold.Proofs.Disk.Stopped

/-! What a refused write leaves behind. No file that was there is touched, the target included, and
the fresh file is taken away again, unless the refusal strikes while it is being filled: its name is
noted for the clean-up only after that. -/

namespace Scaffold.Disk

variable {d made : Disk} {place other directory : Place} {p : Path} {t : Text} {hazard : Hazard}
  {fault : Fault}

theorem makeFrom_place {names : List Text} (h : (d.makeFrom place names).2 = some directory) :
    directory = names.foldl step place := by
  induction names generalizing d place with
  | nil => exact (Option.some.inj h).symm
  | cons name rest ih =>
    rw [makeFrom] at h
    split at h
    · exact ih h
    · simp at h
    · exact ih h

theorem placeOf_ne_temporary (d made : Disk) (p : Path) :
    d.placeOf p ≠ made.temporary (d.placeOf p.parent) p := by
  rcases List.eq_nil_or_concat p.parts with none_ | ⟨front, last, split⟩
  · have same : d.placeOf p = d.placeOf p.parent := by
      simp only [placeOf, start, Path.parent, none_, List.dropLast_nil]
    simp [temporary, same]
  · rw [List.concat_eq_append] at split
    have above : d.placeOf p = step (d.placeOf p.parent) last := by
      simp [placeOf, start, Path.parent, split]
    have longer := made.length_freshName (p.parts.getLast?.getD [])
    rw [above, temporary, step]
    split_ifs with up
    · intro same
      simpa using congrArg List.length same
    · intro same
      have names := List.singleton_inj.1 (List.append_cancel_left same)
      rw [← names, split] at longer
      simp at longer

/-- The refusal strikes once the fresh file is there and before it is complete. -/
def Strands (d : Disk) (hazard : Hazard) (p : Path) : Prop :=
  hazard.stopsAfter? p.parent.parts = none ∧ (d.makeDirectories p.parent).2.isSome ∧
    hazard .create = false ∧ (hazard .write ∨ hazard .flush ∨ hazard .sync)

theorem replaceIn_of_filling (created : hazard .create = false)
    (strikes : hazard .write ∨ hazard .flush ∨ hazard .sync) (d : Disk) (directory : Place)
    (p : Path) (t : Text) :
    ∃ content, d.replaceIn hazard directory p t =
      (d.set (d.temporary directory p) (.file content), .error .system) := by
  rw [replaceIn, if_neg (by simp [created])]
  by_cases early : hazard .write || hazard .flush
  · exact ⟨.text [], if_pos early⟩
  · have late : hazard .sync := by
      simp only [Bool.or_eq_true, not_or] at early
      simpa [early] using strikes
    exact ⟨.text t, by rw [if_neg early, if_pos late]⟩

theorem replaceIn_of_error (h : (d.replaceIn hazard directory p t).2 = .error fault)
    (done : hazard .create ∨ ¬ (hazard .write ∨ hazard .flush ∨ hazard .sync)) :
    (d.replaceIn hazard directory p t).1 = d := by
  revert h
  simp only [replaceIn, erase_set_temporary]
  split_ifs with create filling syncing
  · exact fun _ => rfl
  · simp_all
  · simp_all
  · exact fun _ => rfl
  · exact fun _ => rfl
  · exact fun _ => rfl
  · split
    · exact fun _ => rfl
    · split_ifs
      · exact fun _ => rfl
      · intro h
        simp at h

theorem makeDirectories_extends (d : Disk) (p : Path) :
    d.Extends (d.makeDirectories p).1 ∧ (d.makeDirectories p).1.fileAt? = d.fileAt? :=
  makeFrom_extends d (d.start p) p.parts

theorem isDirectoryAt_makeFrom {names : List Text}
    (h : (d.makeFrom place names).1.isDirectoryAt other) :
    d.isDirectoryAt other ∨ ∃ front, front <+: names ∧ other = front.foldl step place := by
  induction names generalizing d place with
  | nil => exact .inl h
  | cons name rest ih =>
    -- a directory behind the first step is one along the names from there
    have further {e : Disk} (h : (e.makeFrom (step place name) rest).1.isDirectoryAt other) :
        e.isDirectoryAt other ∨
          ∃ front, front <+: name :: rest ∧ other = front.foldl step place := by
      refine (ih h).imp_right ?_
      rintro ⟨front, begins, here⟩
      exact ⟨name :: front, List.prefix_cons_inj name |>.2 begins, here⟩
    rw [makeFrom] at h
    split at h
    · exact further h
    · exact .inl h
    · next vacant =>
      rcases further h with before | along
      · by_cases here : other = step place name
        · exact .inr ⟨[name], List.prefix_cons_inj name |>.2 List.nil_prefix, here⟩
        · have ne : step place name ≠ [] := by
            intro bare
            rw [bare] at vacant
            simp at vacant
          rw [isDirectoryAt, node?_set ne, if_neg here] at before
          exact .inl before
      · exact .inr along

theorem write_eq_replaceIn (clean : p.parent.hasNull = false)
    (through : hazard.stopsAfter? p.parent.parts = none)
    (result : d.makeDirectories p.parent = (made, some directory)) (t : Text) :
    d.write hazard p t = made.replaceIn hazard directory p t := by
  rw [write, if_neg (by simp [clean]), through, result]

theorem write_of_strands (h : d.Strands hazard p) (clean : p.parent.hasNull = false) (t : Text) :
    ∃ made content, made = (d.makeDirectories p.parent).1 ∧
      d.write hazard p t =
        (made.set (made.temporary (d.placeOf p.parent) p) (.file content), .error .system) := by
  obtain ⟨through, there, created, strikes⟩ := h
  obtain ⟨directory, found⟩ := Option.isSome_iff_exists.1 there
  obtain rfl : directory = d.placeOf p.parent := makeFrom_place found
  obtain ⟨content, replaced⟩ := replaceIn_of_filling created strikes
    (d.makeDirectories p.parent).1 (d.placeOf p.parent) p t
  refine ⟨_, content, rfl, ?_⟩
  rw [write_eq_replaceIn clean through (Prod.ext rfl found), replaced]

theorem write_of_not_strands (h : ¬ d.Strands hazard p)
    (refused : (d.write hazard p t).2 = .error fault) :
    ∃ names, names <+: p.parent.parts ∧
      (d.write hazard p t).1 = (d.makeFrom (d.start p) names).1 := by
  by_cases null : p.parent.hasNull
  · exact ⟨[], List.nil_prefix, by rw [write, if_pos null, makeFrom]⟩
  cases stops : hazard.stopsAfter? p.parent.parts with
  | some passed => exact ⟨_, List.take_prefix _ _, by rw [write, if_neg null, stops]⟩
  | none =>
    refine ⟨_, List.prefix_rfl, ?_⟩
    have way : d.makeFrom (d.start p) p.parent.parts = d.makeDirectories p.parent := rfl
    rw [way]
    rw [Bool.not_eq_true] at null
    cases result : d.makeDirectories p.parent with
    | mk made found =>
      cases found with
      | none => rw [write, if_neg (by simp [null]), stops, result]
      | some directory =>
        have done : hazard .create ∨ ¬ (hazard .write ∨ hazard .flush ∨ hazard .sync) := by
          by_contra either
          rw [not_or, not_not, Bool.not_eq_true] at either
          exact h ⟨stops, by rw [result]; rfl, either⟩
        rw [write_eq_replaceIn null stops result] at refused ⊢
        exact replaceIn_of_error refused done

theorem not_hasNull_parent (refused : (d.write hazard p t).2 = .error .system) :
    p.parent.hasNull = false := by
  rw [← Bool.not_eq_true]
  intro null
  rw [write, if_pos null] at refused
  simp at refused

theorem fileAt?_of_strands (h : d.Strands hazard p)
    (refused : (d.write hazard p t).2 = .error .system) :
    ∃ name content, d.node? (d.placeOf p.parent ++ [name]) = none ∧
      d.placeOf p ≠ d.placeOf p.parent ++ [name] ∧
      (d.write hazard p t).1.fileAt? =
        Function.update d.fileAt? (d.placeOf p.parent ++ [name]) (some content) := by
  obtain ⟨made, content, rfl, stopped⟩ := write_of_strands h (not_hasNull_parent refused) t
  obtain ⟨grown, same⟩ := d.makeDirectories_extends p.parent
  have fresh := node?_temporary (d.makeDirectories p.parent).1 (d.placeOf p.parent) p
  refine ⟨_, content, node?_eq_none grown (by rw [same]; exact id) fresh,
    placeOf_ne_temporary d (d.makeDirectories p.parent).1 p, ?_⟩
  rw [stopped, ← same]
  exact fileAt?_set_file (temporary_ne_nil _ _ p)

theorem fileAt?_of_not_strands (h : ¬ d.Strands hazard p)
    (refused : (d.write hazard p t).2 = .error fault) :
    (d.write hazard p t).1.fileAt? = d.fileAt? := by
  obtain ⟨names, -, made⟩ := write_of_not_strands h refused
  rw [made, (makeFrom_extends d _ names).2]

theorem isDirectoryAt_of_refused (refused : (d.write hazard p t).2 = .error .system)
    (h : (d.write hazard p t).1.isDirectoryAt place) :
    d.isDirectoryAt place ∨
      ∃ front, front <+: p.parent.parts ∧ place = front.foldl step (d.start p) := by
  by_cases strands : d.Strands hazard p
  · obtain ⟨made, content, rfl, stopped⟩ :=
      write_of_strands strands (not_hasNull_parent refused) t
    rw [stopped] at h
    exact isDirectoryAt_makeFrom (isDirectoryAt_of_set_file (temporary_ne_nil _ _ p) h)
  · obtain ⟨names, along, made⟩ := write_of_not_strands strands refused
    rw [made] at h
    refine (isDirectoryAt_makeFrom h).imp_right ?_
    rintro ⟨front, begins, here⟩
    exact ⟨front, begins.trans along, here⟩

/-- A write that the file system refuses keeps every directory and every file, the target included.
It may have made directories on the way to the one of the target. It has made a file in that one
exactly if the refusal struck while the fresh file was being filled. -/
theorem write_refused (d : Disk) (hazard : Hazard) (p : Path) (t : Text)
    (refused : (d.write hazard p t).2 = .error .system) :
    let after := (d.write hazard p t).1
    (∀ place, d.isDirectoryAt place → after.isDirectoryAt place) ∧
    (∀ place, after.isDirectoryAt place → d.isDirectoryAt place ∨
      ∃ front, front <+: p.parent.parts ∧ place = front.foldl step (d.start p)) ∧
    after.fileAt? (d.placeOf p) = d.fileAt? (d.placeOf p) ∧
    (∀ place content, d.fileAt? place = some content → after.fileAt? place = some content) ∧
    (¬ d.Strands hazard p → after.fileAt? = d.fileAt?) ∧
    (d.Strands hazard p → ∃ name content, d.node? (d.placeOf p.parent ++ [name]) = none ∧
      after.fileAt? =
        Function.update d.fileAt? (d.placeOf p.parent ++ [name]) (some content)) := by
  intro after
  refine ⟨(write_effect d hazard p t).grown.directory,
    fun place there => isDirectoryAt_of_refused refused there, ?_⟩
  by_cases strands : d.Strands hazard p
  · obtain ⟨name, content, vacant, apart, files⟩ := fileAt?_of_strands strands refused
    have files : after.fileAt? = _ := files
    refine ⟨?_, fun place held before => ?_, fun none_ => absurd strands none_,
      fun _ => ⟨name, content, vacant, files⟩⟩
    · rw [files, Function.update_of_ne apart]
    · have other : place ≠ d.placeOf p.parent ++ [name] := by
        rintro rfl
        simp [fileAt?, vacant] at before
      rw [files, Function.update_of_ne other, before]
  · have files : after.fileAt? = d.fileAt? := fileAt?_of_not_strands strands refused
    exact ⟨by rw [files], fun place content before => by rw [files, before], fun _ => files,
      fun some_ => absurd some_ strands⟩

theorem write_refused_below_parent :
    let d : Disk := ⟨[(["p".toList], .directory)], ["p".toList]⟩
    let p := Path.ofText "a/../a".toList
    (d.write .calm p "x".toList).2 = .error .system ∧
      (d.write .calm p "x".toList).1.fileAt? = d.fileAt? ∧
      d.node? ["p".toList, "a".toList] = none ∧
      (d.write .calm p "x".toList).1.isDirectoryAt ["p".toList, "a".toList] := by
  intro d p
  have refused : (d.write .calm p "x".toList).2 = .error .system := by decide +kernel
  obtain ⟨-, -, -, -, files, -⟩ := write_refused d .calm p "x".toList refused
  refine ⟨refused, files ?_, by decide +kernel, by decide +kernel⟩
  rintro ⟨-, -, -, strikes⟩
  simp [Hazard.calm] at strikes

/-- Wherever the refusal strikes while the fresh file is being filled, that file stays. -/
theorem write_leaves_fresh_file :
    let d : Disk := ⟨[(["p".toList], .directory)], ["p".toList]⟩
    let p := Path.ofText "a.txt".toList
    ∀ stage ∈ [Stage.write, .flush, .sync], ∃ place, d.node? place = none ∧
      (d.write (· == stage) p "x".toList).2 = .error .system ∧
      ((d.write (· == stage) p "x".toList).1.fileAt? place).isSome := by
  intro d p stage mem
  refine ⟨d.temporary ["p".toList] p, by decide +kernel, ?_⟩
  simp only [List.mem_cons, List.not_mem_nil, or_false] at mem
  rcases mem with rfl | rfl | rfl <;> decide +kernel

end Scaffold.Disk
