import Scaffold.Proofs.Composition.Composed
import Scaffold.Proofs.Plan.ClassFile
import Scaffold.Proofs.Plan.Steps

/-! A model planned together with its collection and query builder, from the built-in stubs and
for plain names. The texts always come about; so the plan fails only where a class is in the way,
and what it holds otherwise is known in all of its three files. -/

namespace Scaffold.Site
open Text Naming Source Recipe Project

variable {s : Site} {name t q c b : Text} {path : Path} {fault : Fault}

theorem newClass_outcome (s : Site) (name : Text) {built : Noted Text}
    (done : built.outcome = .ok t) :
    (s.newClass name built).outcome = do
      let action ← s.actionFor (s.layout.pathOf name)
      return ⟨s.layout.pathOf name, action, t⟩ := by
  simp only [newClass, Noted.outcome_bind, Noted.outcome_lift, done, ok_bind]
  rfl

theorem ensureCollection_of_planned (filled : name ≠ [])
    (known : s.qualifier.qualify .collection name = .ok c) :
    s.ensureCollection (some name) [s.layout.pathOf c] = .ok () := by
  simp [ensureCollection, given_some filled, known, ok_bind, pure, Except.pure]

theorem basename_of_qualify (given : PlainGiven name) {kind : Kind}
    (known : s.qualifier.qualify kind name = .ok q) (hq : Placed s.qualifier q) :
    basename q = basename name := by
  obtain ⟨relative, rfl, -, last⟩ := Qualifier.exists_relative given known
  rw [hq.basename_eq, Qualifier.root, List.append_assoc, ← last]
  exact lastSegment_append _ _

theorem pathOf_ne (slash : '/' ∉ s.layout.extension) (hq : Placed s.qualifier q)
    (hc : Placed s.qualifier c) (ne : basename q ≠ basename c) :
    s.layout.pathOf q ≠ s.layout.pathOf c := by
  obtain ⟨relative, root, plain, last⟩ :=
    Qualifier.exists_relative hq.plain.given (hq.settled .model)
  obtain ⟨other, root', plain', last'⟩ :=
    Qualifier.exists_relative hc.plain.given (hc.settled .model)
  rw [← last, ← last'] at ne
  intro same
  refine Layout.placeOf_pathOf_ne s.disk plain plain' slash ne (congrArg s.disk.placeOf ?_)
  rwa [root, root'] at same

/-- The plan for a model with both of its parts: what the three files hold in the end. -/
structure FullPlan (s : Site) (q c b : Text) (collection builder model : Write) : Prop where
  paths : [collection, builder, model].map Write.path = [c, b, q].map s.layout.pathOf
  collectionMarked : occurrences collectionMarker model.content = 1
  builderMarked : occurrences queryBuilderMarker model.content = 1
  modelImports : c ∈ imports model.content ∧ b ∈ imports model.content
  modelEntries : Sheet.classEntries? model.content =
    some ["@method static ".toList ++ queryBuilderNameFor (studly (basename q)) ++
      " query()".toList]
  collectionImports : q ∈ imports collection.content
  collectionEntries : Sheet.classEntries? collection.content =
    some ["@method null|".toList ++ basename q ++ " first()".toList]
  builderImports : q ∈ imports builder.content ∧ c ∈ imports builder.content
  builderEntries : Sheet.classEntries? builder.content =
    some ["@method null|".toList ++ basename q ++ " first()".toList,
      "@method ".toList ++ collectionNameFor (studly (basename q)) ++ " get()".toList]

/-- The three classes of a model, each with a file of its own. -/
structure ModelClasses (s : Site) (name q c b : Text) : Prop where
  model : s.qualifier.qualify .model name = .ok q
  collection : s.qualifier.qualify .collection (collectionNameFor (studly (basename q))) = .ok c
  builder : s.qualifier.qualify .queryBuilder (queryBuilderNameFor (studly (basename q))) = .ok b
  placedModel : Placed s.qualifier q
  placedCollection : Placed s.qualifier c
  placedBuilder : Placed s.qualifier b
  basename_model : basename q = basename name
  basename_collection : basename c = collectionNameFor (studly (basename q))
  basename_builder : basename b = queryBuilderNameFor (studly (basename q))

theorem exists_modelClasses (space : Plain s.layout.space) (plain : PlainGiven name)
    (undummied : Stub.Undummied s.layout.space) (undummied' : Stub.Undummied name) :
    ∃ q c b, s.ModelClasses name q c b := by
  obtain ⟨q, model, hq⟩ := Qualifier.exists_placed (q := s.qualifier) space undummied plain
    undummied' .model
  have same := basename_of_qualify plain model hq
  obtain ⟨short, short'⟩ := plain_partNames plain.basename
  rw [← same] at short short'
  obtain ⟨c, collection, hc⟩ :=
    Qualifier.exists_placed_segment (q := s.qualifier) space undummied short .collection
  obtain ⟨b, builder, hb⟩ :=
    Qualifier.exists_placed_segment (q := s.qualifier) space undummied short' .queryBuilder
  refine ⟨q, c, b, model, collection, builder, hq, hc, hb, same, ?_, ?_⟩
  · rw [basename_of_qualify short.toPlain.given collection hc, short.basename_eq]
  · rw [basename_of_qualify short'.toPlain.given builder hb, short'.basename_eq]

namespace ModelClasses

theorem nodup (h : s.ModelClasses name q c b) (slash : '/' ∉ s.layout.extension) :
    ([c, b, q].map s.layout.pathOf).Nodup := by
  obtain ⟨collection, builder, parts⟩ := names_apart (basename q)
  rw [← h.basename_collection] at collection parts
  rw [← h.basename_builder] at builder parts
  simp [pathOf_ne slash h.placedCollection h.placedBuilder parts,
    pathOf_ne slash h.placedCollection h.placedModel collection.symm,
    pathOf_ne slash h.placedBuilder h.placedModel builder.symm]

theorem outcome (h : s.ModelClasses name q c b) (builtin : s.project.Builtin) :
    (s.planModel name false).outcome = do
      let action ← s.actionFor (s.layout.pathOf q)
      let first ← s.actionFor (s.layout.pathOf c)
      let second ← s.actionFor (s.layout.pathOf b)
      return [⟨s.layout.pathOf c, first, (collectionSheet q c).text⟩,
        ⟨s.layout.pathOf b, second,
          (queryBuilderSheet q c b (collectionNameFor (studly (basename q)))).text⟩,
        ⟨s.layout.pathOf q, action, (modelSheet q c b).text⟩] := by
  obtain ⟨knownModel, known, known', hq, hc, hb, same, -, -⟩ := h
  rw [same] at known known' ⊢
  have filled : collectionNameFor (studly (basename name)) ≠ [] := by simp [collectionNameFor]
  have model := newClass_outcome s q (builtin.buildModel hq)
  have collection := newClass_outcome s c (builtin.buildCollection hq hc)
  have builder := newClass_outcome s b
    (builtin.buildQueryBuilder hq hc hb filled known)
  have ensured := ensureCollection_of_planned (s := s) filled known
  have once := builtin.composeCollection hq hc (some q)
  have twice := builtin.composeQueryBuilder hq hc hb (some q)
  simp only [planModel, composedCollection, composedQueryBuilder, Noted.outcome_bind,
    Noted.outcome_lift, Noted.outcome_pure, knownModel, known, known', ok_bind, bind_assoc,
    pure_bind, model, collection, builder, once, twice, ensured, Bool.false_eq_true, if_false]
  rfl

theorem refused (h : s.ModelClasses name q c b) (builtin : s.project.Builtin)
    (kept : s.force = false) {n : Text} (mem : n ∈ [q, c, b])
    (taken : s.disk.holds (s.layout.pathOf n)) :
    ∃ n ∈ [q, c, b], s.disk.holds (s.layout.pathOf n) ∧
      (s.planModel name false).outcome = .error (.classExists (s.layout.pathOf n).text) := by
  have blocked : ∀ {n : Text}, s.disk.holds (s.layout.pathOf n) →
      s.actionFor (s.layout.pathOf n) = .error (.classExists (s.layout.pathOf n).text) :=
    actionFor_of_taken kept
  have passed : ∀ {n : Text}, ¬ s.disk.holds (s.layout.pathOf n) →
      ∃ action, s.actionFor (s.layout.pathOf n) = .ok action :=
    fun free => exists_actionFor (.inr (eq_false_of_ne_true free))
  rw [h.outcome builtin]
  by_cases model : s.disk.holds (s.layout.pathOf q)
  · exact ⟨q, by simp, model, by rw [blocked model]; rfl⟩
  obtain ⟨action, clear⟩ := passed model
  by_cases collection : s.disk.holds (s.layout.pathOf c)
  · exact ⟨c, by simp, collection, by rw [clear, ok_bind, blocked collection]; rfl⟩
  obtain ⟨first, clear'⟩ := passed collection
  have builder : s.disk.holds (s.layout.pathOf b) := by
    simp only [List.mem_cons, List.not_mem_nil, or_false] at mem
    rcases mem with rfl | rfl | rfl
    · exact absurd taken model
    · exact absurd taken collection
    · exact taken
  exact ⟨b, by simp, builder, by rw [clear, ok_bind, clear', ok_bind, blocked builder]; rfl⟩

theorem fullPlan (h : s.ModelClasses name q c b) (action first second : Action) :
    s.FullPlan q c b ⟨s.layout.pathOf c, first, (collectionSheet q c).text⟩
      ⟨s.layout.pathOf b, second,
        (queryBuilderSheet q c b (collectionNameFor (studly (basename q)))).text⟩
      ⟨s.layout.pathOf q, action, (modelSheet q c b).text⟩ := by
  obtain ⟨short, -⟩ := plain_partNames h.placedModel.plain.given.basename
  obtain ⟨marked, collection, builder, entries⟩ :=
    modelSheet_spec h.placedModel h.placedCollection h.placedBuilder
  obtain ⟨model, entries'⟩ := collectionSheet_spec h.placedModel h.placedCollection
  obtain ⟨model', collection', entries''⟩ :=
    queryBuilderSheet_spec h.placedModel h.placedCollection h.placedBuilder short
  refine ⟨rfl, marked .collection, marked .queryBuilder, ⟨collection, builder⟩, ?_, model, entries',
    ⟨model', collection'⟩, ?_⟩
  · unfold Recipe.modelEntries queryEntry at entries
    rwa [h.basename_builder] at entries
  · unfold firstEntry getEntry at entries''
    rwa [short.basename_eq] at entries''

theorem planned (h : s.ModelClasses name q c b) (builtin : s.project.Builtin)
    (free : s.force ∨ ∀ n ∈ [q, c, b], s.disk.holds (s.layout.pathOf n) = false) :
    ∃ collection builder model,
      (s.planModel name false).outcome = .ok [collection, builder, model] ∧
        s.FullPlan q c b collection builder model := by
  have pass : ∀ n ∈ [q, c, b], ∃ action, s.actionFor (s.layout.pathOf n) = .ok action :=
    fun n mem => exists_actionFor (free.imp_right fun clear => clear n mem)
  obtain ⟨action, model⟩ := pass q (by simp)
  obtain ⟨first, collection⟩ := pass c (by simp)
  obtain ⟨second, builder⟩ := pass b (by simp)
  refine ⟨_, _, _, ?_, h.fullPlan action first second⟩
  rw [h.outcome builtin, model, ok_bind, collection, ok_bind, builder]
  rfl

end ModelClasses

/-- From the built-in stubs a model is planned with both of its parts, whatever plain names it is
given, unless a class is in the way that must not be overwritten. -/
theorem planModel_builtin (s : Site) {name : Text} (space : Plain s.layout.space)
    (slash : '/' ∉ s.layout.extension) (builtin : s.project.Builtin) (plain : PlainGiven name)
    (undummied : Stub.Undummied s.layout.space) (undummied' : Stub.Undummied name) :
    ∃ q c b, s.qualifier.qualify .model name = .ok q ∧
      s.qualifier.qualify .collection (collectionNameFor (studly (basename q))) = .ok c ∧
      s.qualifier.qualify .queryBuilder (queryBuilderNameFor (studly (basename q))) = .ok b ∧
      ([c, b, q].map s.layout.pathOf).Nodup ∧
      ((s.force = false ∧ ∃ n ∈ [q, c, b], s.disk.holds (s.layout.pathOf n)) →
        ∃ n ∈ [q, c, b], s.disk.holds (s.layout.pathOf n) ∧
          (s.planModel name false).outcome = .error (.classExists (s.layout.pathOf n).text)) ∧
      ((s.force ∨ ∀ n ∈ [q, c, b], s.disk.holds (s.layout.pathOf n) = false) →
        ∃ collection builder model,
          (s.planModel name false).outcome = .ok [collection, builder, model] ∧
            s.FullPlan q c b collection builder model) := by
  obtain ⟨q, c, b, h⟩ := exists_modelClasses space plain undummied undummied'
  refine ⟨q, c, b, h.model, h.collection, h.builder, h.nodup slash, ?_, h.planned builtin⟩
  rintro ⟨kept, n, mem, taken⟩
  exact h.refused builtin kept mem taken

/-- A project without stubs of its own, and with a directory that is customary for models. -/
def notesSite : Site :=
  ⟨.standard ⟨.root, ["p".toList]⟩,
    ((Disk.empty ["p".toList]).makeDirectories ⟨.relative, ["app".toList, "Models".toList]⟩).1,
    true⟩

theorem planModel_builtin_dummy_class :
    let s := notesSite
    let name := "Notes/dummy_class".toList
    ∃ q c b, s.qualifier.qualify .model name = .ok q ∧
      s.qualifier.qualify .collection (collectionNameFor (studly (basename q))) = .ok c ∧
      s.qualifier.qualify .queryBuilder (queryBuilderNameFor (studly (basename q))) = .ok b ∧
      ([c, b, q].map s.layout.pathOf).Nodup ∧
      ((s.force = false ∧ ∃ n ∈ [q, c, b], s.disk.holds (s.layout.pathOf n)) →
        ∃ n ∈ [q, c, b], s.disk.holds (s.layout.pathOf n) ∧
          (s.planModel name false).outcome = .error (.classExists (s.layout.pathOf n).text)) ∧
      ((s.force ∨ ∀ n ∈ [q, c, b], s.disk.holds (s.layout.pathOf n) = false) →
        ∃ collection builder model,
          (s.planModel name false).outcome = .ok [collection, builder, model] ∧
            s.FullPlan q c b collection builder model) :=
  planModel_builtin notesSite (by decide +kernel) (by decide +kernel)
    (by unfold Project.Builtin; decide +kernel) (by decide +kernel)
    (fun slot => by cases slot <;> decide +kernel) (fun slot => by cases slot <;> decide +kernel)

end Scaffold.Site
