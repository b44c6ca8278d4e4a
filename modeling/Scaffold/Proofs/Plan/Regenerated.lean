import Scaffold.Proofs.Plan.Again
import Scaffold.Proofs.Plan.Classes
import Scaffold.Proofs.Plan.FreshModel
import Scaffold.Proofs.Plan.Stepwise

/-! A model made over again by force. Its plan looks at directories, at the stubs of the project
and at which files there are, and never into a class file; so the second run plans what the first
one has written, and writes it where it stands already. -/

namespace Scaffold
open Text Naming

namespace Disk

variable {d e : Disk} {place : Place} {p : Path} {writes : List Write}

theorem mem_entries_of_node? {node : Node} (ne : place ≠ []) (there : d.node? place = some node) :
    place ∈ d.entries.map Prod.fst := by
  rw [node?, if_neg ne] at there
  obtain ⟨front, back, split, -⟩ := List.lookup_eq_some_iff.1 there
  rw [split]
  simp

theorem SameTree.of_newDirectories (grown : d.Extends e) (unmade : d.newDirectories e = []) :
    d.SameTree e := by
  refine ⟨grown.here, funext fun place => ?_⟩
  rw [Bool.eq_iff_iff]
  refine ⟨fun there => ?_, grown.directory place⟩
  by_contra missing
  have listed := mem_entries_of_node? (ne_nil_of_not_isDirectoryAt missing) (beq_iff_eq.1 there)
  have made : place ∈ d.newDirectories e := List.mem_filter.2 ⟨listed, by simp [there, missing]⟩
  rw [unmade] at made
  simp at made

theorem ready_of_locate? (named : p.parts ≠ []) (clean : p.hasNull = false)
    (found : d.locate? p = some (d.placeOf p)) (free : ¬ d.isDirectoryAt (d.placeOf p)) :
    d.Ready p := by
  obtain ⟨passes, -⟩ := locate?_eq_some_iff.1 found
  rw [← List.dropLast_concat_getLast named, passes_append, passes_cons] at passes
  exact ⟨named, clean, isDirectory_iff.2 ⟨passes.1, passes.2.1⟩, free⟩

theorem placeOf_concat (d : Disk) {front : List Text} {name : Text}
    (parts : p.parts = front ++ [name]) (named : name ≠ parentName) :
    ∃ above, d.placeOf p = above ++ [name] := by
  rw [placeOf, parts, List.foldl_append, List.foldl_cons, List.foldl_nil, step, if_neg named]
  exact ⟨_, rfl⟩

theorem foldl_overwrite_congr {files others : Place → Option Content}
    (same : files place = others place) :
    writes.foldl d.overwrite files place = writes.foldl d.overwrite others place := by
  induction writes generalizing files others with
  | nil => exact same
  | cons w rest ih =>
    refine ih ?_
    simp only [overwrite, Function.update_apply, same]

theorem foldl_overwrite_again (files : Place → Option Content) :
    writes.foldl d.overwrite (writes.foldl d.overwrite files) =
      writes.foldl d.overwrite files := by
  -- from the back, as the last write to a place is the one that counts
  induction writes using List.reverseRecOn with
  | nil => rfl
  | append_singleton front w ih =>
    simp only [List.foldl_concat]
    funext place
    by_cases here : place = d.placeOf w.path
    · simp only [overwrite, here, Function.update_self]
    · simp only [overwrite, Function.update_of_ne here]
      have before : front.foldl d.overwrite (d.overwrite (front.foldl d.overwrite files) w) place =
          front.foldl d.overwrite (front.foldl d.overwrite files) place :=
        foldl_overwrite_congr (Function.update_of_ne here _ _)
      exact before.trans (congrFun ih place)

end Disk

/-- The same write to a file that is there. -/
def Write.again (w : Write) : Write :=
  { w with action := .updated }

namespace Disk

variable {d e : Disk} {writes : List Write}

theorem foldl_overwrite_map_again (files : Place → Option Content) :
    (writes.map Write.again).foldl d.overwrite files = writes.foldl d.overwrite files := by
  rw [List.foldl_map]
  rfl

end Disk

namespace Layout

variable {layout : Layout} {relative : Text}

theorem exists_parts_pathOf (free : '/' ∉ relative) (slash : '/' ∉ layout.extension) :
    ∃ front last, (layout.pathOf (layout.root ++ relative)).parts =
      front ++ [last ++ layout.extension] := by
  rw [pathOf_eq free slash, Path.append_relative, extended, ← List.append_assoc]
  exact ⟨_, _, rfl⟩

theorem parts_stubPath (layout : Layout) {stub : Text} (known : stub ∈ Stub.builtin.map Prod.fst) :
    (layout.stubPath stub).parts = layout.stubsRoot.parts ++ [stub ++ ".stub".toList] := by
  have read : ∀ stub ∈ Stub.builtin.map Prod.fst, Path.ofText (stub ++ ".stub".toList) =
      ⟨.relative, [stub ++ ".stub".toList]⟩ := by decide
  rw [stubPath, read stub known, Path.append_relative]

theorem placeOf_ne_stub (d : Disk) {p : Path} {front : List Text} {last stub : Text}
    (parts : p.parts = front ++ [last ++ ".php".toList])
    (known : stub ∈ Stub.builtin.map Prod.fst) :
    d.placeOf p ≠ d.placeOf (layout.stubPath stub) := by
  have ends {name rest : Text} {c : Char} (last : rest.getLast? = some c) (ne : c ≠ '.') :
      name ++ rest ≠ Disk.parentName := fun same => by
    have dot := congrArg List.getLast? same
    rw [List.getLast?_append, last] at dot
    exact ne (Option.some.inj dot)
  obtain ⟨above, first⟩ := d.placeOf_concat parts (ends (c := 'p') rfl (by decide))
  obtain ⟨above', second⟩ := d.placeOf_concat (layout.parts_stubPath known)
    (ends (c := 'b') rfl (by decide))
  rw [first, second]
  intro same
  have names := congrArg List.getLast? (List.cons.inj (List.append_inj_right' same rfl)).1
  rw [List.getLast?_append_of_ne_nil _ (by decide), List.getLast?_append_of_ne_nil _ (by decide)]
    at names
  exact absurd names (by decide)

end Layout

namespace Site

variable {s : Site} {e : Disk} {request : Request} {name : Text} {plain : Bool}
  {writes : List Write} {w : Write} {hazards : Hazards} {report : Report}

theorem exists_parts_of_plan (slash : '/' ∉ s.layout.extension)
    (planned : (s.plan request).outcome = .ok writes) (mem : w ∈ writes) :
    ∃ front last, w.path.parts = front ++ [last ++ s.layout.extension] := by
  obtain ⟨parts, models, rfl, files⟩ := exists_files planned
  obtain ⟨named, q, known, path⟩ := files.isFileOf mem
  obtain ⟨relative, rfl, free⟩ := Qualifier.exists_root_append known
  rw [path]
  exact Layout.exists_parts_pathOf free slash

theorem sparesStubs_of_plan (php : s.layout.extension = ".php".toList)
    (planned : (s.plan request).outcome = .ok writes) : s.SparesStubs writes := by
  intro w mem stub known
  obtain ⟨front, last, parts⟩ := exists_parts_of_plan (by rw [php]; decide) planned mem
  rw [php] at parts
  exact Layout.placeOf_ne_stub s.disk parts known

theorem rewritten_of_make (done : (s.make false hazards request).outcome = .ok report)
    (unmade : s.disk.newDirectories (s.make false hazards request).disk = []) :
    s.disk.Rewritten report.writes (s.make false hazards request).disk := by
  obtain ⟨planned, -, committed⟩ := make_ok done
  rw [(make_of_plan hazards planned).1] at unmade ⊢
  have effect := commit_effect s.disk hazards report.writes
  exact ⟨.of_newDirectories effect.grown unmade, (effect.of_ok committed).2.2⟩

theorem ready_of_rewritten (slash : '/' ∉ s.layout.extension)
    (done : (s.make false hazards request).outcome = .ok report)
    (rewritten : s.disk.Rewritten report.writes (s.make false hazards request).disk)
    (mem : w ∈ report.writes) : s.disk.Ready w.path := by
  obtain ⟨planned, -, committed⟩ := make_ok done
  obtain ⟨front, last, parts⟩ := exists_parts_of_plan slash planned mem
  obtain ⟨clean, placed, -⟩ := (commit_effect s.disk hazards report.writes).of_ok committed
  rw [(make_of_plan hazards planned).1] at rewritten
  refine Disk.ready_of_locate? (by simp [parts]) (clean w mem) ?_ (free_of_commit committed mem)
  rw [← rewritten.tree.locate?_eq]
  exact placed w mem

theorem newClass_again (forced : s.force) {built : Noted Text} (there : e.holds w.path)
    (ok : (s.newClass name built).outcome = .ok w) :
    (newClass { s with disk := e } name built).outcome = .ok w.again := by
  obtain ⟨action, t, -, done, rfl⟩ := newClass_eq_ok.1 ok
  have taken : actionFor { s with disk := e } (s.layout.pathOf name) = .ok .updated := by
    rw [actionFor, if_pos there, if_pos forced]
  exact newClass_eq_ok.2 ⟨.updated, t, taken, done, rfl⟩

theorem ModelPlan.planModel_eq {qualified : Text} {m c once b twice : Write}
    (plan : s.ModelPlan name qualified m c once b twice) :
    (s.planModel name false).outcome = .ok [c, b, { m with content := twice.content }] := by
  simp only [planModel, Noted.outcome_bind, Noted.outcome_lift, plan.known, ok_bind, plan.built,
    plan.first, plan.second, Bool.false_eq_true, if_false, Noted.outcome_pure]

theorem planModel_plain_again (forced : s.force)
    (alike : s.project.Alike (project { s with disk := e }))
    (planned : (s.planModel name true).outcome = .ok writes)
    (there : ∀ w ∈ writes, e.holds w.path) :
    (planModel { s with disk := e } name true).outcome = .ok (writes.map Write.again) := by
  obtain ⟨q, w, known, made, rfl⟩ := planModel_plain_eq_ok.1 planned
  have again := newClass_again forced (there w (by simp)) made
  rw [planModel_plain_eq_ok]
  refine ⟨q, w.again, ?_, ?_, rfl⟩
  · rw [qualifier, alike.qualifier_eq]
    exact known
  · rw [alike.buildModel_eq]
    exact again

theorem ModelPlan.again {qualified : Text} {m c once b twice : Write} (forced : s.force)
    (alike : s.project.Alike (project { s with disk := e }))
    (plan : s.ModelPlan name qualified m c once b twice)
    (there : ∀ w ∈ [m, c, b], e.holds w.path) :
    ModelPlan { s with disk := e } name qualified m.again c.again once b.again twice := by
  obtain ⟨placed, path, t, composed, known, -⟩ := composedCollection_eq_ok.1 plan.first
  have ensured : ensureCollection { s with disk := e }
      (some (collectionNameFor (studly (basename name)))) [c.path] = .ok () := by
    rw [plan.collection_path known]
    refine ensureCollection_of_planned (s := { s with disk := e }) (by simp [collectionNameFor]) ?_
    rw [qualifier, alike.qualifier_eq]
    exact known
  refine ⟨?_, ?_, ?_, ?_⟩
  · rw [qualifier, alike.qualifier_eq]
    exact plan.known
  · rw [alike.buildModel_eq]
    exact newClass_again forced (there m (by simp)) plan.built
  · exact composedCollection_of_alike alike (newClass_again forced (there c (by simp))) plan.first
  · exact composedQueryBuilder_of_alike alike (newClass_again forced (there b (by simp))) ensured
      plan.second

theorem planModel_again (forced : s.force) (alike : s.project.Alike (project { s with disk := e }))
    (planned : (s.planModel name plain).outcome = .ok writes)
    (there : ∀ w ∈ writes, e.holds w.path) :
    (planModel { s with disk := e } name plain).outcome = .ok (writes.map Write.again) := by
  cases plain with
  | true => exact planModel_plain_again forced alike planned there
  | false =>
    obtain ⟨q, m, c, once, b, twice, plan, rfl⟩ := exists_modelPlan planned
    have again := plan.again forced alike (by simpa [and_comm, and_left_comm] using there)
    exact again.planModel_eq

/-- Another disk with the same directories and files. A file may hold something else, unless the
project has it for a stub. -/
structure Resembles (s : Site) (e : Disk) : Prop where
  tree : s.disk.SameTree e
  files : ∀ place, (e.fileAt? place).isSome = (s.disk.fileAt? place).isSome
  stubs : ∀ stub ∈ Stub.builtin.map Prod.fst,
    e.file? (s.layout.stubPath stub) = s.disk.file? (s.layout.stubPath stub)

namespace Resembles

theorem alike (h : s.Resembles e) : s.project.Alike (project { s with disk := e }) :=
  ⟨rfl, funext fun _ => h.tree.isDirectory_eq _, h.stubs⟩

theorem holds_eq (h : s.Resembles e) (p : Path) : e.holds p = s.disk.holds p := by
  unfold Disk.holds Disk.at?
  rw [h.tree.locate?_eq]
  cases s.disk.locate? p with
  | none => rfl
  | some place =>
    have same := h.files place
    simp only [Option.bind_some, Disk.node?_eq_ite, h.tree.directory]
    split_ifs
    · rfl
    · simpa using same

theorem isFile_eq (h : s.Resembles e) (p : Path) : e.isFile p = s.disk.isFile p := by
  rw [Disk.isFile, Disk.isFile, Disk.file?_eq_bind, Disk.file?_eq_bind, h.tree.locate?_eq]
  cases s.disk.locate? p with
  | none => rfl
  | some place => exact h.files place

theorem of_set {place : Place} {content : Content} (file : (s.disk.fileAt? place).isSome)
    (apart : ∀ stub ∈ Stub.builtin.map Prod.fst,
      s.disk.placeOf (s.layout.stubPath stub) ≠ place) :
    s.Resembles (s.disk.set place (.file content)) := by
  have free : ¬ s.disk.isDirectoryAt place := by
    obtain ⟨before, found⟩ := Option.isSome_iff_exists.1 file
    rw [Disk.fileAt?_eq_some_iff] at found
    simp [Disk.isDirectoryAt, found]
  have ne := Disk.ne_nil_of_not_isDirectoryAt free
  have tree : s.disk.SameTree (s.disk.set place (.file content)) := Disk.sameTree_set_file free
  refine ⟨tree, fun other => ?_, fun stub known => ?_⟩
  · rw [Disk.fileAt?_set_file ne, Function.update_apply]
    split_ifs with here
    · rw [here, file, Option.isSome_some]
    · rfl
  · have same := tree.at?_eq (p := s.layout.stubPath stub) (by
      rw [Disk.fileAt?_set_file ne, Function.update_of_ne (apart stub known)])
    rw [Disk.file?, Disk.file?, same]

theorem planModel_eq (h : s.Resembles e) (name : Text) (plain : Bool) :
    planModel { s with disk := e } name plain = s.planModel name plain := by
  have qualifier : qualifier { s with disk := e } = s.qualifier := h.alike.qualifier_eq
  have action : actionFor { s with disk := e } = s.actionFor := by
    funext path
    simp only [actionFor, h.holds_eq]
  have ensured : ensureCollection { s with disk := e } = s.ensureCollection := by
    funext collection planned
    simp only [ensureCollection, h.isFile_eq, qualifier]
  simp only [planModel, composedCollection, composedQueryBuilder, newClass, qualifier, action,
    ensured, h.alike.buildModel_eq, h.alike.buildCollection_eq, h.alike.buildQueryBuilder_eq,
    h.alike.composeCollection_eq, h.alike.composeQueryBuilder_eq]

end Resembles

theorem make_again_of_rewritten (forced : s.force) (php : s.layout.extension = ".php".toList)
    (planned : (s.plan (.model name plain)).outcome = .ok writes)
    (rewritten : s.disk.Rewritten writes e) (ready : ∀ w ∈ writes, s.disk.Ready w.path)
    (there : ∀ w ∈ writes, e.isFile w.path) :
    let run := make { s with disk := e } false [] (.model name plain)
    run.outcome = .ok ⟨writes.map Write.again, false⟩ ∧ run.disk.fileAt? = e.fileAt? ∧
      e.SameTree run.disk := by
  intro run
  have alike := alike_of_rewritten rewritten (sparesStubs_of_plan php planned)
  have replanned : (plan { s with disk := e } (.model name plain)).outcome =
      .ok (writes.map Write.again) :=
    planModel_again forced alike planned fun w mem => Disk.holds_of_isFile (there w mem)
  obtain ⟨remade, again⟩ := make_ready replanned fun w mem => by
    obtain ⟨v, listed, rfl⟩ := List.mem_map.1 mem
    exact rewritten.tree.ready (ready v listed)
  have overwrite : e.overwrite = s.disk.overwrite := by
    funext files v
    rw [Disk.overwrite, Disk.overwrite, rewritten.tree.placeOf_eq]
  refine ⟨remade, again.files.trans ?_, again.tree⟩
  rw [Disk.overwritten, Disk.foldl_overwrite_map_again, overwrite, rewritten.files,
    Disk.overwritten, Disk.foldl_overwrite_again]

/-- A forced run that has found all its directories, made again: it goes through with the same
paths and contents, each of them an update, and leaves every file and directory as it is. What is
planned for a model does not depend on what the class files of the project hold. -/
theorem make_model_regenerates (s : Site) (name : Text) (plain : Bool) :
    (∀ hazards report, s.force → s.layout.extension = ".php".toList →
      (s.make false hazards (.model name plain)).outcome = .ok report →
      s.disk.newDirectories (s.make false hazards (.model name plain)).disk = [] →
      let later := s.after hazards (.model name plain)
      let run := later.make false [] (.model name plain)
      run.outcome = .ok ⟨report.writes.map Write.again, false⟩ ∧
        run.disk.fileAt? = later.disk.fileAt? ∧ later.disk.SameTree run.disk) ∧
    ∀ e, s.Resembles e → planModel { s with disk := e } name plain = s.planModel name plain := by
  refine ⟨fun hazards report forced php done unmade => ?_, fun e h => h.planModel_eq name plain⟩
  have slash : '/' ∉ s.layout.extension := by
    rw [php]
    decide
  have rewritten := rewritten_of_make done unmade
  simp only [after]
  exact make_again_of_rewritten forced php (make_ok done).1 rewritten
    (fun w mem => ready_of_rewritten slash done rewritten mem) (aftermath_of_make done).written

/-- A project with a model that is there already. -/
def draftSite : Site :=
  { notesSite with
    disk := notesSite.disk.set ["p".toList, "app".toList, "Models".toList, "Note.php".toList]
      (.file (.text "<?php".toList)) }

theorem make_model_regenerates_draft :
    let request := Request.model "Note".toList false
    let later := draftSite.after [] request
    ∃ report, (draftSite.make false [] request).outcome = .ok report ∧
      (later.make false [] request).outcome = .ok ⟨report.writes.map Write.again, false⟩ ∧
      (later.make false [] request).disk.fileAt? = later.disk.fileAt? ∧
      planModel { draftSite with
          disk := draftSite.disk.set
            ["p".toList, "app".toList, "Models".toList, "Note.php".toList] (.file (.text [])) }
          "Note".toList false = draftSite.planModel "Note".toList false := by
  intro request later
  have succeeds : (draftSite.make false [] request).outcome.isOk ∧
      draftSite.disk.newDirectories (draftSite.make false [] request).disk = [] := by
    decide +kernel
  obtain ⟨report, done⟩ := exists_report succeeds.1
  obtain ⟨again, independent⟩ := make_model_regenerates draftSite "Note".toList false
  obtain ⟨remade, files, -⟩ :=
    again [] report (by decide +kernel) (by decide +kernel) done succeeds.2
  exact ⟨report, done, remade, files,
    independent _ (.of_set (by decide +kernel) (by decide +kernel))⟩

end Site
end Scaffold
