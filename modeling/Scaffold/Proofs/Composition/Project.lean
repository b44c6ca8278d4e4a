import Scaffold.Composition.Project

/-! What composing and building depend on: the layout, the occupied segments, and the stubs
under the five names that have a built-in one. Projects alike in these compose alike. -/

namespace Scaffold
open Text Recipe

theorem Noted.outcome_bind_eq_ok {α β : Type} {x : Noted α} {f : α → Noted β} {b : β} :
    (x >>= f).outcome = .ok b ↔ ∃ a, x.outcome = .ok a ∧ (f a).outcome = .ok b := by
  rw [outcome_bind, bind_eq_ok]

theorem Recipe.given_some {name : Text} (filled : name ≠ []) : given (some name) = some name := by
  simp [given, filled]

theorem Recipe.ne_nil_of_given {name : Option Text} {t : Text} (h : given name = some t) :
    t ≠ [] := by
  simpa using (Option.filter_eq_some_iff.1 h).2

namespace Project

variable {p r : Project} {name t : Text} {model collection : Option Text}

structure Alike (p r : Project) : Prop where
  layout : r.layout = p.layout
  occupied : r.occupied = p.occupied
  stubFile : ∀ stub ∈ Stub.builtin.map Prod.fst, r.stubFile stub = p.stubFile stub

namespace Alike

theorem qualifier_eq (h : p.Alike r) : r.qualifier = p.qualifier := by
  rw [qualifier, qualifier, h.layout, h.occupied]

theorem stub_eq (h : p.Alike r) {stub : Text} (known : stub ∈ Stub.builtin.map Prod.fst) :
    r.stub stub = p.stub stub := by
  rw [Project.stub, Project.stub, h.stubFile stub known, h.layout]

theorem rendered_eq (h : p.Alike r) (stub : Text) (known : stub ∈ Stub.builtin.map Prod.fst) :
    r.rendered stub = p.rendered stub := by
  funext name
  rw [rendered, rendered, h.stub_eq known, h.layout]

theorem compositionBlock_eq (h : p.Alike r) (stub : Text)
    (known : stub ∈ Stub.builtin.map Prod.fst) :
    r.compositionBlock stub = p.compositionBlock stub := by
  funext name
  rw [compositionBlock, compositionBlock, h.stub_eq known]

theorem composeCollection_eq (h : p.Alike r) : r.composeCollection = p.composeCollection := by
  funext name model t
  have block := h.compositionBlock_eq Stub.collectionCompositionName (by decide)
  rw [composeCollection, composeCollection, h.qualifier_eq, block]

theorem composeQueryBuilder_eq (h : p.Alike r) :
    r.composeQueryBuilder = p.composeQueryBuilder := by
  funext name model t
  have block := h.compositionBlock_eq Stub.queryBuilderCompositionName (by decide)
  rw [composeQueryBuilder, composeQueryBuilder, h.qualifier_eq, block]

theorem buildModel_eq (h : p.Alike r) : r.buildModel = p.buildModel := by
  funext name
  have rendered := h.rendered_eq Stub.modelName (by decide)
  rw [buildModel, buildModel, h.qualifier_eq, rendered]

theorem buildCollection_eq (h : p.Alike r) : r.buildCollection = p.buildCollection := by
  funext name model
  have rendered := h.rendered_eq Stub.collectionName (by decide)
  rw [buildCollection, buildCollection, h.qualifier_eq, rendered]

theorem buildQueryBuilder_eq (h : p.Alike r) : r.buildQueryBuilder = p.buildQueryBuilder := by
  funext name model collection
  have rendered := h.rendered_eq Stub.queryBuilderName (by decide)
  have referred : r.referred = p.referred := by
    funext model collection
    rw [Project.referred, Project.referred, h.qualifier_eq]
  rw [buildQueryBuilder, buildQueryBuilder, h.qualifier_eq, rendered, referred]

end Alike

theorem not_isComposed_of_inject {imports : List Text} {block marker result : Text}
    {subject : Option Text} (filled : marker ≠ [])
    (h : inject imports block (some marker) subject t = .ok result) :
    isComposed marker t = false := by
  cases marker with
  | nil => exact absurd rfl filled
  | cons c rest =>
    rw [inject, ensureNotComposed] at h
    by_cases composed : isComposed (c :: rest) t
    · simp [composed, bind, Except.bind] at h
    · simpa using composed

theorem not_isComposed_of_composeCollection {result : Text}
    (h : (p.composeCollection name model t).outcome = .ok result) :
    isComposed collectionMarker t = false := by
  simp only [composeCollection, Noted.outcome_bind_eq_ok] at h
  obtain ⟨qualified, -, noted, -, block, -, injected⟩ := h
  exact not_isComposed_of_inject (by decide) injected

theorem not_isComposed_of_composeQueryBuilder {result : Text}
    (h : (p.composeQueryBuilder name model t).outcome = .ok result) :
    isComposed queryBuilderMarker t = false := by
  simp only [composeQueryBuilder, Noted.outcome_bind_eq_ok] at h
  obtain ⟨qualified, -, noted, -, block, -, composed, injected, -⟩ := h
  exact not_isComposed_of_inject (by decide) injected

end Project
end Scaffold
