import Scaffold.Proofs.Plan.Classes
import Scaffold.Proofs.Plan.Rewritten

/-! Runs that the file system stops. Each write takes effect as a whole or not at all, so a run
that is stopped has done the writes of its plan in front of some point, and as the model comes
last, it names no class that is still to be written. -/

namespace Scaffold

namespace Disk

variable {d e after : Disk} {done writes : List Write} {w : Write} {place : Place}

theorem foldl_overwrite_whole (d : Disk) (files : Place → Option Content) (done : List Write)
    (place : Place) :
    done.foldl d.overwrite files place = files place ∨ ∃ w ∈ done, d.placeOf w.path = place ∧
      done.foldl d.overwrite files place = some (.text w.content) := by
  induction done generalizing files with
  | nil => exact .inl rfl
  | cons v rest ih =>
    rw [List.foldl_cons]
    rcases ih (d.overwrite files v) with same | ⟨w, mem, here, content⟩
    · by_cases here : d.placeOf v.path = place
      · refine .inr ⟨v, by simp, here, ?_⟩
        rw [same, ← here]
        exact Function.update_self ..
      · refine .inl (same.trans ?_)
        exact Function.update_of_ne (Ne.symm here) _ _
    · exact .inr ⟨w, List.mem_cons_of_mem _ mem, here, content⟩

/-- The disk `after` a run with the plan `writes` on the disk `d`, of which `done` was done. -/
structure Partway (d : Disk) (writes done : List Write) (after : Disk) : Prop where
  grown : d.Extends after
  written : ∀ w ∈ done, after.locate? w.path = some (d.placeOf w.path)
  /-- The targets are those of `d`, overwritten by the writes done. -/
  targets : ∀ w ∈ writes,
    after.file? w.path = (after.locate? w.path).bind (d.overwritten done)
  /-- No target is old in part and new in part. -/
  whole : ∀ place, d.overwritten done place = d.fileAt? place ∨
    ∃ w ∈ done, d.placeOf w.path = place ∧ d.overwritten done place = some (.text w.content)
  /-- Any other file is a new one, and no target. -/
  others : ∀ place, after.fileAt? place ≠ d.overwritten done place →
    d.node? place = none ∧ ∀ w ∈ writes, after.locate? w.path ≠ some place

theorem Partway.of_others (grown : d.Extends after)
    (written : ∀ w ∈ done, after.locate? w.path = some (d.placeOf w.path))
    (others : ∀ place, after.fileAt? place ≠ d.overwritten done place →
      d.node? place = none ∧ ∀ w ∈ writes, after.locate? w.path ≠ some place) :
    d.Partway writes done after := by
  refine ⟨grown, written, fun w mem => ?_, foldl_overwrite_whole d d.fileAt? done, others⟩
  rw [file?_eq_bind]
  cases found : after.locate? w.path with
  | none => rfl
  | some place =>
    by_contra different
    exact (others place different).2 w mem found

theorem Partway.of_abandoned (grown : d.Extends e) (files : e.fileAt? = d.overwritten done)
    (written : ∀ v ∈ done, e.locate? v.path = some (d.placeOf v.path))
    (left : e.Abandoned w.path after) (clear : ∀ v ∈ writes, v.path.ClearOf w.path) :
    d.Partway writes done after := by
  refine .of_others (grown.trans left.extends)
    (fun v mem => left.extends.locate? (written v mem)) fun place different => ?_
  rcases left.fileAt?_eq place with same | ⟨vacant, apart⟩
  · exact absurd (same.trans (congrFun files place)) different
  · have before : (d.fileAt? place).isSome → (e.fileAt? place).isSome := by
      rw [files]
      exact fun there => foldl_overwrite_isSome (.inl there)
    exact ⟨node?_eq_none grown before vacant, fun v mem => apart v.path (clear v mem)⟩

end Disk

theorem exists_stop {d : Disk} {hazards : Hazards} {writes : List Write} {fault : Fault}
    (h : (commit d hazards writes).outcome = .error fault) :
    ∃ done w rest e, writes = done ++ w :: rest ∧ d.Extends e ∧
      e.fileAt? = d.overwritten done ∧
      (∀ v ∈ done, e.locate? v.path = some (d.placeOf v.path)) ∧
      e.Abandoned w.path (commit d hazards writes).disk := by
  induction writes generalizing d hazards with
  | nil => simp [commit] at h
  | cons w rest ih =>
    have first := Disk.write_effect d (hazards.headD Hazard.calm) w.path w.content
    unfold commit at h ⊢
    split at h
    · next after result =>
      rw [result] at first
      obtain ⟨-, found, changed⟩ := first.of_ok rfl
      obtain ⟨done, v, rest, e, rfl, grown, files, written, left⟩ := ih h
      refine ⟨w :: done, v, rest, e, rfl, first.grown.trans grown, ?_, ?_, left⟩
      · rw [files, Disk.overwritten_cons first.grown changed]
      · refine List.forall_mem_cons.2 ⟨grown.locate? found, fun u mem => ?_⟩
        rw [← first.grown.placeOf_eq]
        exact written u mem
    -- the first write that fails ends the run, and only that one may leave something behind
    · next after late result =>
      have left := Disk.write_abandoned (congrArg Prod.snd result)
      rw [result] at left
      exact ⟨[], w, rest, d, rfl, .refl d, rfl, by simp, left⟩

theorem commit_partway (d : Disk) (hazards : Hazards) {writes : List Write}
    (clear : ∀ v ∈ writes, ∀ w ∈ writes, v.path.ClearOf w.path) :
    ∃ done rest, writes = done ++ rest ∧
      (rest = [] ↔ (commit d hazards writes).outcome = .ok ()) ∧
      d.Partway writes done (commit d hazards writes).disk := by
  cases outcome : (commit d hazards writes).outcome with
  | ok u =>
    have effect := commit_effect d hazards writes
    obtain ⟨-, written, files⟩ := effect.of_ok outcome
    refine ⟨writes, [], by simp, by simp, .of_others effect.grown written fun place different => ?_⟩
    exact absurd (congrFun files place) different
  | error fault =>
    obtain ⟨done, w, rest, e, split, grown, files, written, left⟩ := exists_stop outcome
    refine ⟨done, w :: rest, split, by simp, .of_abandoned grown files written left ?_⟩
    exact fun v mem => clear v mem w (by simp [split])

namespace Site

variable {s : Site} {request : Request} {writes parts models : List Write} {model : Text}

theorem file?_of_partway {done : List Write} {update : Write} {after : Disk}
    (partway : s.disk.Partway (parts ++ [update]) done after) (front : done <+: parts)
    (apart : ∀ v ∈ parts, s.disk.placeOf v.path ≠ s.disk.placeOf update.path) :
    after.file? update.path = (after.locate? update.path).bind s.disk.fileAt? := by
  rw [partway.targets update (by simp)]
  cases found : after.locate? update.path with
  | none => rfl
  | some place =>
    obtain ⟨-, rfl⟩ := Disk.locate?_eq_some_iff.1 found
    rw [partway.grown.placeOf_eq]
    exact Disk.overwritten_of_ne fun v mem => apart v (front.subset mem)

/-- A run past its plan does the writes up to some point and none of the others, whatever stops
it: the targets are as before, overwritten by those writes, each of them as a whole. The update
of the model is the last one, so a run that was stopped has not done it, and where no part has
the file of the model, that file is the one of before. -/
theorem make_partway (planned : (s.plan request).outcome = .ok writes) (hazards : Hazards) :
    let run := s.make false hazards request
    ∃ done rest, writes = done ++ rest ∧ (rest = [] ↔ run.outcome = .ok ⟨writes, false⟩) ∧
      s.disk.Partway writes done run.disk ∧
      ∀ model, request.model? = some model → ∃ parts update,
        writes = parts ++ [update] ∧ s.Files request parts [update] ∧
        (rest = [] ∨ done <+: parts ∧
          ((∀ v ∈ parts, s.disk.placeOf v.path ≠ s.disk.placeOf update.path) →
            run.disk.file? update.path =
              (run.disk.locate? update.path).bind s.disk.fileAt?)) := by
  intro run
  obtain ⟨parts, models, split, files⟩ := exists_files planned
  have clear : ∀ v ∈ writes, ∀ w ∈ writes, v.path.ClearOf w.path := by
    intro v first w second
    obtain ⟨_, file⟩ := files.isFileOf (split ▸ first)
    obtain ⟨_, file'⟩ := files.isFileOf (split ▸ second)
    exact file.clearOf file'
  obtain ⟨disk, outcome⟩ := make_of_plan hazards planned
  obtain ⟨done, rest, cut, through, partway⟩ := commit_partway s.disk hazards clear
  rw [← disk] at partway
  refine ⟨done, rest, cut, ?_, partway, fun model given => ?_⟩
  · rw [through]
    show _ ↔ (s.make false hazards request).outcome = _
    rw [outcome]
    cases (commit s.disk hazards writes).outcome <;> simp [Except.map]
  · obtain ⟨update, rfl⟩ := files.exists_update given
    refine ⟨parts, update, split, files, ?_⟩
    rcases List.eq_nil_or_concat rest with none | ⟨others, last, some⟩
    · exact .inl none
    -- the update is the last write, so it is among those left out
    · have front : done <+: parts := by
        rw [some, List.concat_eq_append, split, ← List.append_assoc] at cut
        exact ⟨others, (List.append_inj_left' cut rfl).symm⟩
      exact .inr ⟨front, file?_of_partway (split ▸ partway) front⟩

theorem make_partway_update_refused :
    let app : Place := ["p".toList, "app".toList]
    let model := app ++ ["Tag.php".toList]
    let source := "namespace App;\nclass Tag\n\x7b\n\x7d\n".toList
    let s : Site := ⟨.standard ⟨.root, ["p".toList]⟩,
      ⟨[(["p".toList], .directory), (app, .directory), (model, .file (.text source))], app⟩, false⟩
    let request := Request.collection "Tags".toList (some "Tag".toList)
    let run := s.make false [.calm, fun stage => stage = .sync] request
    ∃ writes done rest parts update, (s.plan request).outcome = .ok writes ∧
      writes = done ++ rest ∧ s.disk.Partway writes done run.disk ∧
      writes = parts ++ [update] ∧ done <+: parts ∧
      run.disk.isFile ⟨.root, app ++ ["Tags.php".toList]⟩ ∧
      run.disk.file? ⟨.root, model⟩ = some (.text source) := by
  intro app model source s request run
  obtain ⟨stopped, collection, old⟩ : run.outcome.isOk = false ∧
      run.disk.isFile ⟨.root, app ++ ["Tags.php".toList]⟩ ∧
      run.disk.file? ⟨.root, model⟩ = some (.text source) := by
    decide +kernel
  cases planned : (s.plan request).outcome with
  | error fault =>
    have missing : s.disk.isFile ⟨.root, app ++ ["Tags.php".toList]⟩ = false := by decide +kernel
    have same : run.disk = s.disk := (make_of_plan_error _ planned false).2
    rw [same, missing] at collection
    exact absurd collection (by decide)
  | ok writes =>
    obtain ⟨done, rest, cut, through, partway, last⟩ :=
      make_partway planned [.calm, fun stage => stage = .sync]
    obtain ⟨parts, update, split, -, all | ⟨front, -⟩⟩ := last "Tag".toList rfl
    · have whole : run.outcome = .ok ⟨writes, false⟩ := through.1 all
      simp [whole, Except.isOk, Except.toBool] at stopped
    · exact ⟨writes, done, rest, parts, update, rfl, cut, partway, split, front, collection, old⟩

end Site
end Scaffold
