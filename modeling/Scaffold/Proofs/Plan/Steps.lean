import Scaffold.Plan.Basic
import Scaffold.Proofs.Composition.Project

/-! What each step of a plan comes to where it succeeds: which names, sources and texts it has
found, and which writes it plans. -/

namespace Scaffold.Site
open Text Naming Recipe

variable {s : Site} {name model : Text} {collection : Option Text}
  {source : Except Fault (Path × Text)} {fresh update w : Write} {writes : List Write}

theorem ok_bind {α β : Type} (a : α) (f : α → Except Fault β) : Except.ok a >>= f = f a := rfl

theorem actionFor_of_taken {path : Path} (kept : s.force = false) (taken : s.disk.holds path) :
    s.actionFor path = .error (.classExists path.text) := by
  simp [actionFor, kept, taken]

theorem exists_actionFor {path : Path} (free : s.force ∨ s.disk.holds path = false) :
    ∃ action, s.actionFor path = .ok action := by
  unfold actionFor
  rcases free with forced | free
  · by_cases taken : s.disk.holds path <;> simp [taken, forced]
  · simp [free]

theorem newClass_eq_ok {built : Noted Text} :
    (s.newClass name built).outcome = .ok w ↔ ∃ action t,
      s.actionFor (s.layout.pathOf name) = .ok action ∧ built.outcome = .ok t ∧
        w = ⟨s.layout.pathOf name, action, t⟩ := by
  simp only [newClass, Noted.outcome_bind_eq_ok, Noted.outcome_lift, Noted.outcome_pure,
    Except.ok.injEq]
  constructor
  · rintro ⟨action, free, t, done, rfl⟩
    exact ⟨action, t, free, done, rfl⟩
  · rintro ⟨action, t, free, done, rfl⟩
    exact ⟨action, free, t, done, rfl⟩

theorem composedCollection_eq_ok :
    (s.composedCollection name model source).outcome = .ok (fresh, update) ↔
      ∃ qualified path t composed, s.qualifier.qualify .collection name = .ok qualified ∧
        source = .ok (path, t) ∧
        (s.project.composeCollection qualified (some model) t).outcome = .ok composed ∧
        (s.newClass qualified (s.project.buildCollection qualified (some model))).outcome =
          .ok fresh ∧ update = ⟨path, .updated, composed⟩ := by
  simp only [composedCollection, Noted.outcome_bind_eq_ok, Noted.outcome_lift,
    Noted.outcome_pure, Except.ok.injEq, Prod.mk.injEq]
  constructor
  · rintro ⟨qualified, known, ⟨path, t⟩, read, composed, done, w, built, rfl, rfl⟩
    exact ⟨qualified, path, t, composed, known, read, done, built, rfl⟩
  · rintro ⟨qualified, path, t, composed, known, read, done, built, rfl⟩
    exact ⟨qualified, known, ⟨path, t⟩, read, composed, done, fresh, built, rfl, rfl⟩

theorem composedQueryBuilder_eq_ok {planned : List Path} :
    (s.composedQueryBuilder name model collection planned source).outcome =
        .ok (fresh, update) ↔
      ∃ qualified path t composed, s.qualifier.qualify .queryBuilder name = .ok qualified ∧
        s.ensureCollection collection planned = .ok () ∧ source = .ok (path, t) ∧
        (s.project.composeQueryBuilder qualified (some model) t).outcome = .ok composed ∧
        (s.newClass qualified
          (s.project.buildQueryBuilder qualified (some model) collection)).outcome =
          .ok fresh ∧ update = ⟨path, .updated, composed⟩ := by
  simp only [composedQueryBuilder, Noted.outcome_bind_eq_ok, Noted.outcome_lift,
    Noted.outcome_pure, Except.ok.injEq, Prod.mk.injEq]
  constructor
  · rintro ⟨qualified, known, _, there, ⟨path, t⟩, read, composed, done, w, built, rfl, rfl⟩
    exact ⟨qualified, path, t, composed, known, there, read, done, built, rfl⟩
  · rintro ⟨qualified, path, t, composed, known, there, read, done, built, rfl⟩
    exact ⟨qualified, known, (), there, ⟨path, t⟩, read, composed, done, fresh, built, rfl, rfl⟩

theorem path_of_newClass {built : Noted Text} (h : (s.newClass name built).outcome = .ok w) :
    w.path = s.layout.pathOf name := by
  obtain ⟨action, t, -, -, rfl⟩ := newClass_eq_ok.1 h
  rfl

theorem planModel_plain_eq_ok :
    (s.planModel name true).outcome = .ok writes ↔ ∃ qualified w,
      s.qualifier.qualify .model name = .ok qualified ∧
        (s.newClass qualified (s.project.buildModel qualified)).outcome = .ok w ∧
        writes = [w] := by
  simp only [planModel, Noted.outcome_bind_eq_ok, Noted.outcome_lift, if_true,
    Noted.outcome_pure, Except.ok.injEq]
  grind

/-- The parts of a plan for a model with its collection and query builder: the text of the model
goes through both compositions, which leave it as the updates `once` and `twice`. -/
structure ModelPlan (s : Site) (name qualified : Text)
    (model collection once builder twice : Write) : Prop where
  known : s.qualifier.qualify .model name = .ok qualified
  built : (s.newClass qualified (s.project.buildModel qualified)).outcome = .ok model
  first : (s.composedCollection (collectionNameFor (studly (basename name))) qualified
    (.ok (model.path, model.content))).outcome = .ok (collection, once)
  second : (s.composedQueryBuilder (queryBuilderNameFor (studly (basename name))) qualified
    (some (collectionNameFor (studly (basename name)))) [collection.path]
    (.ok (model.path, once.content))).outcome = .ok (builder, twice)

theorem exists_modelPlan (h : (s.planModel name false).outcome = .ok writes) :
    ∃ qualified model collection once builder twice,
      s.ModelPlan name qualified model collection once builder twice ∧
        writes = [collection, builder, { model with content := twice.content }] := by
  simp only [planModel, Noted.outcome_bind_eq_ok, Noted.outcome_lift, Bool.false_eq_true,
    if_false, Noted.outcome_pure, Except.ok.injEq] at h
  obtain ⟨qualified, known, model, built, ⟨collection, once⟩, first, ⟨builder, twice⟩, second,
    rfl⟩ := h
  exact ⟨qualified, model, collection, once, builder, twice, ⟨known, built, first, second⟩, rfl⟩

namespace ModelPlan

variable {qualified placed : Text} {m c once b twice : Write}

theorem path (h : s.ModelPlan name qualified m c once b twice) :
    m.path = s.layout.pathOf qualified :=
  path_of_newClass h.built

theorem collection_path (h : s.ModelPlan name qualified m c once b twice)
    (known : s.qualifier.qualify .collection (collectionNameFor (studly (basename name))) =
      .ok placed) : c.path = s.layout.pathOf placed := by
  obtain ⟨found, path, t, composed, same, -, -, built, -⟩ := composedCollection_eq_ok.1 h.first
  rw [known, Except.ok.injEq] at same
  rw [path_of_newClass built, same]

theorem builder_path (h : s.ModelPlan name qualified m c once b twice)
    (known : s.qualifier.qualify .queryBuilder (queryBuilderNameFor (studly (basename name))) =
      .ok placed) : b.path = s.layout.pathOf placed := by
  obtain ⟨found, path, t, composed, same, -, -, -, built, -⟩ :=
    composedQueryBuilder_eq_ok.1 h.second
  rw [known, Except.ok.injEq] at same
  rw [path_of_newClass built, same]

theorem uncollected (h : s.ModelPlan name qualified m c once b twice) :
    isComposed collectionMarker m.content = false ∧ once.path = m.path := by
  obtain ⟨found, path, t, composed, -, read, done, -, rfl⟩ := composedCollection_eq_ok.1 h.first
  rw [Except.ok.injEq, Prod.mk.injEq] at read
  obtain ⟨rfl, rfl⟩ := read
  exact ⟨Project.not_isComposed_of_composeCollection done, rfl⟩

theorem unbuilt (h : s.ModelPlan name qualified m c once b twice) :
    isComposed queryBuilderMarker once.content = false ∧ twice.path = m.path := by
  obtain ⟨found, path, t, composed, -, -, read, done, -, rfl⟩ :=
    composedQueryBuilder_eq_ok.1 h.second
  rw [Except.ok.injEq, Prod.mk.injEq] at read
  obtain ⟨rfl, rfl⟩ := read
  exact ⟨Project.not_isComposed_of_composeQueryBuilder done, rfl⟩

end ModelPlan

theorem modelSource_eq_ok {marker qualified t : Text}
    (known : s.qualifier.qualify .model model = .ok qualified)
    (read : s.disk.file? (s.layout.pathOf qualified) = some (.text t))
    (bare : isComposed marker t = false) :
    s.modelSource model marker = .ok (s.layout.pathOf qualified, t) := by
  simp [modelSource, known, Disk.readSource, read, Content.decode, ensureNotComposed, bare,
    bind, Except.bind, pure, Except.pure]

theorem exists_of_modelSource {marker t : Text} {path : Path}
    (h : s.modelSource model marker = .ok (path, t)) :
    ∃ q what, s.qualifier.qualify .model model = .ok q ∧ path = s.layout.pathOf q ∧
      s.disk.readSource path what = .ok t := by
  simp only [modelSource, bind_eq_ok] at h
  obtain ⟨q, known, text, read, -, -, same⟩ := h
  obtain ⟨rfl, rfl⟩ : s.layout.pathOf q = path ∧ text = t := by
    simpa [pure, Except.pure] using same
  exact ⟨q, _, known, rfl, read⟩

theorem ensureCollection_of_isFile {qualified : Text} (filled : name ≠ [])
    (known : s.qualifier.qualify .collection name = .ok qualified)
    (there : s.disk.isFile (s.layout.pathOf qualified)) (planned : List Path) :
    s.ensureCollection (some name) planned = .ok () := by
  simp [ensureCollection, given_some filled, known, there, bind, Except.bind, pure, Except.pure]

theorem planCollection_eq_ok {model : Option Text} :
    (s.planCollection name model).outcome = .ok writes ↔
      (given model = none ∧ ∃ qualified w, s.qualifier.qualify .collection name = .ok qualified ∧
        (s.newClass qualified (s.project.buildCollection qualified none)).outcome = .ok w ∧
        writes = [w]) ∨
      ∃ m fresh update, given model = some m ∧
        (s.composedCollection name m (s.modelSource m collectionMarker)).outcome =
          .ok (fresh, update) ∧ writes = [fresh, update] := by
  unfold planCollection
  cases given model with
  | none =>
    simp only [Noted.outcome_bind_eq_ok, Noted.outcome_lift, Noted.outcome_pure, Except.ok.injEq]
    grind
  | some m =>
    simp only [Noted.outcome_bind_eq_ok, Noted.outcome_pure, Except.ok.injEq, Prod.exists]
    grind

theorem planQueryBuilder_eq_ok {model : Option Text} :
    (s.planQueryBuilder name model collection).outcome = .ok writes ↔
      (given model = none ∧ ∃ qualified w, s.qualifier.qualify .queryBuilder name = .ok qualified ∧
        s.ensureCollection collection [] = .ok () ∧
        (s.newClass qualified (s.project.buildQueryBuilder qualified none collection)).outcome =
          .ok w ∧ writes = [w]) ∨
      ∃ m fresh update, given model = some m ∧
        (s.composedQueryBuilder name m collection [] (s.modelSource m queryBuilderMarker)).outcome =
          .ok (fresh, update) ∧ writes = [fresh, update] := by
  unfold planQueryBuilder
  cases given model with
  | none =>
    simp only [Noted.outcome_bind_eq_ok, Noted.outcome_lift, Noted.outcome_pure, Except.ok.injEq]
    grind
  | some m =>
    simp only [Noted.outcome_bind_eq_ok, Noted.outcome_pure, Except.ok.injEq, Prod.exists]
    grind

theorem planCollection_composed (filled : model ≠ [])
    (h : (s.composedCollection name model (s.modelSource model collectionMarker)).outcome =
      .ok (fresh, update)) :
    (s.planCollection name (some model)).outcome = .ok [fresh, update] :=
  planCollection_eq_ok.2 (.inr ⟨model, fresh, update, given_some filled, h, rfl⟩)

theorem planQueryBuilder_composed (filled : model ≠ [])
    (h : (s.composedQueryBuilder name model collection []
      (s.modelSource model queryBuilderMarker)).outcome = .ok (fresh, update)) :
    (s.planQueryBuilder name (some model) collection).outcome = .ok [fresh, update] :=
  planQueryBuilder_eq_ok.2 (.inr ⟨model, fresh, update, given_some filled, h, rfl⟩)

end Scaffold.Site
