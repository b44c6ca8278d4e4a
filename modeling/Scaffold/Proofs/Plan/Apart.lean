import Scaffold.Proofs.Naming.Studly
import Scaffold.Plan.Commit
import Scaffold.Proofs.Plan.ClassFile
import Scaffold.Proofs.Plan.Classes

/-! Files written twice. The parts of a request never share a file with each other, but a part
may have the file of the model that it is composed into: where existing classes are overwritten,
if the request gives both the same name; and where a model is made, if its file does not go by
the base name that the parts are called after. -/

namespace Scaffold
open Text Naming

namespace Site

variable {s : Site} {request : Request} {dryRun : Bool} {hazards : Hazards} {report : Report}
  {parts models writes : List Write} {v w : Write} {name q : Text}

theorem getLast?_kept {kind : Kind} (solid : SolidSegment name)
    (known : s.qualifier.qualify kind name = .ok q) : (s.layout.kept q).getLast? = some name := by
  have whole := solid.single
  have same : backslashed name = name := backslashed_eq_self whole.2
  have given : SolidGiven name := by
    rw [SolidGiven, same]
    exact .single solid whole.1
  have customary : ∀ kind : Kind, SolidSegment kind.segment :=
    fun kind => (Qualifier.plain_segment kind).solid
  obtain ⟨relative, root, each, last⟩ :=
    Qualifier.exists_relative_of_each given given customary known
  rw [given.basename_eq, same, lastSegment_of_not_mem whole.1] at last
  obtain rfl : q = s.layout.root ++ relative := root
  rw [Layout.kept_root_append, List.filter_eq_self.2 fun segment mem => (each segment mem).part,
    splitOn_eq_concat, List.getLast?_concat, last]

theorem plan_of_make (done : (s.make dryRun hazards request).outcome = .ok report) :
    (s.plan request).outcome = .ok report.writes := by
  unfold make at done
  cases planned : (s.plan request).outcome with
  | error fault => simp [planned] at done
  | ok writes =>
    simp only [planned] at done
    generalize (if dryRun then _ else _ : Run Unit).outcome = outcome at done
    cases outcome with
    | error fault => simp [Except.map] at done
    | ok u =>
      obtain rfl : ⟨writes, dryRun⟩ = report := by simpa [Except.map] using done
      rfl

theorem path_eq_path_iff {one two : Kind × Text} {q' : Text} (file : s.IsFileOf one v)
    (known : s.qualifier.qualify one.1 one.2 = .ok q) (file' : s.IsFileOf two w)
    (known' : s.qualifier.qualify two.1 two.2 = .ok q') :
    v.path = w.path ↔ s.layout.kept q = s.layout.kept q' := by
  obtain ⟨_, same, path⟩ := file
  obtain ⟨_, same', path'⟩ := file'
  obtain rfl := Except.ok.inj (known.symm.trans same)
  obtain rfl := Except.ok.inj (known'.symm.trans same')
  obtain ⟨relative, rfl, free⟩ := Qualifier.exists_root_append known
  obtain ⟨relative', rfl, free'⟩ := Qualifier.exists_root_append known'
  rw [path, path']
  exact Layout.pathOf_eq_pathOf_iff free free'

/-- A part that is made has the file of the model itself. -/
def Shares (s : Site) (request : Request) : Prop :=
  ∃ model q, request.model? = some model ∧ s.qualifier.qualify .model model = .ok q ∧
    ∃ part ∈ request.parts, ∃ q', s.qualifier.qualify part.1 part.2 = .ok q' ∧
      s.layout.kept q' = s.layout.kept q

theorem shares_iff (files : s.Files request parts models) :
    s.Shares request ↔ ∃ v ∈ parts, ∃ w ∈ models, v.path = w.path := by
  constructor
  · rintro ⟨model, q, given, known, part, listed, q', known', same⟩
    have listed' : model ∈ request.model?.toList := Option.mem_toList.2 given
    obtain ⟨v, mem, file⟩ := exists_of_forall₂ files.parts.flip listed
    obtain ⟨w, mem', file'⟩ := exists_of_forall₂ files.model.flip listed'
    exact ⟨v, mem, w, mem', (path_eq_path_iff file known' file' known).2 same⟩
  · rintro ⟨v, mem, w, mem', same⟩
    obtain ⟨part, listed, file⟩ := exists_of_forall₂ files.parts mem
    obtain ⟨model, listed', file'⟩ := exists_of_forall₂ files.model mem'
    obtain ⟨q', known', -⟩ := id file
    obtain ⟨q, known, -⟩ := id file'
    exact ⟨model, q, Option.mem_toList.1 listed', known, part, listed, q', known',
      (path_eq_path_iff file known' file' known).1 same⟩

theorem solid_parts (name : Text) :
    SolidSegment (collectionNameFor (studly (basename name))) ∧
      SolidSegment (queryBuilderNameFor (studly (basename name))) :=
  ⟨solidSegment_studly_append name (by decide) (by decide +kernel),
    solidSegment_studly_append name (by decide) (by decide +kernel)⟩

theorem nodup_parts (files : s.Files request parts models) : (parts.map Write.path).Nodup := by
  have listed := files.parts
  cases request with
  | model name plain =>
    cases plain with
    | true =>
      rw [Request.parts, List.forall₂_nil_left_iff] at listed
      simp [listed]
    | false =>
      rw [Request.parts, List.forall₂_cons_left_iff] at listed
      obtain ⟨c, others, collection, listed, rfl⟩ := listed
      rw [List.forall₂_cons_left_iff] at listed
      obtain ⟨b, others, builder, listed, rfl⟩ := listed
      rw [List.forall₂_nil_left_iff] at listed
      subst listed
      obtain ⟨q, known, -⟩ := id collection
      obtain ⟨q', known', -⟩ := id builder
      -- the two parts are called after one model with different suffixes
      have apart : c.path ≠ b.path := by
        rw [ne_eq, path_eq_path_iff collection known builder known']
        intro same
        have last := getLast?_kept (solid_parts name).1 known
        rw [same, getLast?_kept (solid_parts name).2 known', Option.some.injEq] at last
        exact (names_apart (basename name)).2.2 last.symm
      simpa using apart
  | collection name model =>
    obtain ⟨c, rfl⟩ := eq_singleton_of_forall₂ listed
    simp
  | queryBuilder name model collection =>
    obtain ⟨b, rfl⟩ := eq_singleton_of_forall₂ listed
    simp

theorem nodup_models (files : s.Files request parts models) : (models.map Write.path).Nodup := by
  cases given : request.model? with
  | none =>
    have listed := files.model
    rw [given, Option.toList_none, List.forall₂_nil_left_iff] at listed
    simp [listed]
  | some model =>
    obtain ⟨update, rfl⟩ := files.exists_update given
    simp

theorem nodup_writes_iff (files : s.Files request parts models) :
    ((parts ++ models).map Write.path).Nodup ↔ ¬ s.Shares request := by
  rw [List.map_append, List.nodup_append, shares_iff files]
  refine ⟨fun ⟨_, _, apart⟩ ⟨v, mem, w, mem', same⟩ => ?_,
    fun none => ⟨nodup_parts files, nodup_models files, ?_⟩⟩
  · exact apart _ (List.mem_map_of_mem mem) _ (List.mem_map_of_mem mem') same
  · intro path listed path' listed' same
    obtain ⟨v, mem, rfl⟩ := List.mem_map.1 listed
    obtain ⟨w, mem', rfl⟩ := List.mem_map.1 listed'
    exact none ⟨v, mem, w, mem', same⟩

theorem force_of_newClass {built : Noted Text} (made : (s.newClass q built).outcome = .ok w)
    (taken : s.disk.holds (s.layout.pathOf q)) : s.force := by
  by_contra kept
  obtain ⟨action, t, free, -, -⟩ := newClass_eq_ok.1 made
  rw [actionFor_of_taken (Bool.eq_false_iff.2 kept) taken] at free
  simp at free

theorem holds_of_modelSource {marker model t : Text} {path : Path}
    (h : s.modelSource model marker = .ok (path, t)) : s.disk.holds path := by
  obtain ⟨q, what, -, -, read⟩ := exists_of_modelSource h
  unfold Disk.readSource at read
  split at read
  · next content found => exact Disk.holds_of_isFile (by simp [Disk.isFile, found])
  · simp at read

theorem force_of_shares {kind : Kind} {model : Text} (shared : s.Shares request)
    (single : request.parts = [(kind, name)]) (given : request.model? = some model)
    (known : s.qualifier.qualify kind name = .ok q) {built : Noted Text}
    (made : (s.newClass q built).outcome = .ok w) {marker t : Text} {path : Path}
    (source : s.modelSource model marker = .ok (path, t)) : s.force := by
  obtain ⟨again, q', given', known', part, listed, q'', known'', same⟩ := shared
  obtain rfl : model = again := Option.some.inj (given.symm.trans given')
  rw [single, List.mem_singleton] at listed
  subst listed
  obtain ⟨placed, what, found, -, -⟩ := exists_of_modelSource source
  obtain rfl : q' = placed := Except.ok.inj (known'.symm.trans found)
  have shared : w.path = path := by
    have file : s.IsFileOf (kind, name) w := isFileOf_newClass known made
    have file' : s.IsFileOf (.model, model) ⟨path, .updated, t⟩ := isFileOf_modelSource source
    exact (path_eq_path_iff file known'' file' known').2 same
  refine force_of_newClass made ?_
  rw [← path_of_newClass made, shared]
  exact holds_of_modelSource source

theorem force_of_shares_parts (planned : (s.plan request).outcome = .ok writes)
    (parts : ∀ name plain, request ≠ .model name plain) (shared : s.Shares request) : s.force := by
  obtain ⟨model, q, given, -⟩ := id shared
  cases request with
  | model name plain => exact absurd rfl (parts name plain)
  | collection name composed =>
    rcases planCollection_eq_ok.1 planned with ⟨absent, -⟩ | ⟨m, w, update, present, ok, -⟩
    · rw [Request.model?, absent] at given
      simp at given
    · obtain ⟨q, path, t, later, known, source, -, made, -⟩ := composedCollection_eq_ok.1 ok
      exact force_of_shares shared rfl present known made source
  | queryBuilder name composed collection =>
    rcases planQueryBuilder_eq_ok.1 planned with ⟨absent, -⟩ | ⟨m, w, update, present, ok, -⟩
    · rw [Request.model?, absent] at given
      simp at given
    · obtain ⟨q, path, t, later, known, -, source, -, made, -⟩ :=
        composedQueryBuilder_eq_ok.1 ok
      exact force_of_shares shared rfl present known made source

theorem getLast?_kept_ne_of_shares {plain : Bool} (shared : s.Shares (.model name plain))
    (known : s.qualifier.qualify .model name = .ok q) :
    (s.layout.kept q).getLast? ≠ some (basename name) := by
  obtain ⟨again, q', given, known', part, listed, q'', known'', same⟩ := shared
  obtain rfl : name = again := Option.some.inj given
  obtain rfl : q = q' := Except.ok.inj (known.symm.trans known')
  obtain ⟨collection, builder⟩ := solid_parts name
  obtain ⟨apart, apart', -⟩ := names_apart (basename name)
  rw [← same]
  cases plain with
  | true => simp [Request.parts] at listed
  | false =>
    simp only [Request.parts, List.mem_cons, List.not_mem_nil, or_false] at listed
    rcases listed with rfl | rfl
    · rw [getLast?_kept collection known'', ne_eq, Option.some.injEq]
      exact apart.symm
    · rw [getLast?_kept builder known'', ne_eq, Option.some.injEq]
      exact apart'.symm

/-- A run that goes through writes no file twice unless a part has the file of the model that it
is composed into. That takes leave to overwrite classes where the model is there before, and
where it is made as well, a name whose last kept segment is not its base name. -/
theorem writes_nodup_iff (done : (s.make dryRun hazards request).outcome = .ok report) :
    ((report.writes.map Write.path).Nodup ↔ ¬ s.Shares request) ∧
    (s.force = false → (∀ name plain, request ≠ .model name plain) →
      (report.writes.map Write.path).Nodup) ∧
    ∀ name plain q, request = .model name plain → s.qualifier.qualify .model name = .ok q →
      (s.layout.kept q).getLast? = some (basename name) →
      (report.writes.map Write.path).Nodup := by
  have planned := plan_of_make done
  obtain ⟨parts, models, split, files⟩ := exists_files planned
  have once : (report.writes.map Write.path).Nodup ↔ ¬ s.Shares request := by
    rw [split]
    exact nodup_writes_iff files
  refine ⟨once, fun kept parts => once.2 fun shared => ?_, ?_⟩
  · rw [force_of_shares_parts planned parts shared] at kept
    simp at kept
  · rintro name plain q rfl known last
    exact once.2 fun shared => getLast?_kept_ne_of_shares shared known last

/-- A project with a model that nothing is composed into, whose classes may be overwritten. -/
def lenientSite : Site :=
  let app : Place := ["p".toList, "app".toList]
  let source := "<?php\nnamespace App;\nclass User\n\x7b\n\x7d\n".toList
  ⟨.standard ⟨.root, ["p".toList]⟩, ⟨[(["p".toList], .directory), (app, .directory),
    (app ++ ["User.php".toList], .file (.text source))], app⟩, true⟩

theorem writes_nodup_iff_query_builder :
    let request := Request.queryBuilder "User".toList (some "User".toList) none
    lenientSite.Shares request ∧ ∃ report,
      (lenientSite.make true [] request).outcome = .ok report ∧
      ¬ (report.writes.map Write.path).Nodup := by
  intro request
  have shared : lenientSite.Shares request :=
    ⟨"User".toList, "App\\User".toList, by decide, by decide +kernel,
      (.queryBuilder, "User".toList), by simp [request, Request.parts], "App\\User".toList,
      by decide +kernel, rfl⟩
  have accepted : (lenientSite.make true [] request).outcome.isOk := by decide +kernel
  cases done : (lenientSite.make true [] request).outcome with
  | error fault => simp [done, Except.isOk, Except.toBool] at accepted
  | ok report => exact ⟨shared, report, rfl, fun once => (writes_nodup_iff done).1.1 once shared⟩

/-- A collection called like its model is written in its place, and then over. -/
theorem make_collection_overwritten :
    let request := Request.collection "User".toList (some "User".toList)
    ∃ report, (lenientSite.make false [] request).outcome = .ok report ∧
      ¬ (report.writes.map Write.path).Nodup := by
  intro request
  have paths : (lenientSite.make false [] request).outcome.toOption.map
      (fun report => decide (report.writes.map Write.path).Nodup) = some false := by
    decide +kernel
  cases done : (lenientSite.make false [] request).outcome with
  | error fault => simp [done, Except.toOption] at paths
  | ok report => exact ⟨report, rfl, by simpa [done, Except.toOption] using paths⟩

end Site
end Scaffold
