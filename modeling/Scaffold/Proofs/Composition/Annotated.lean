import Scaffold.Proofs.Composition.Edits
import Scaffold.Proofs.Naming.Basename

/-! The classes that the doc block of a new class names. A collection takes them from the names it
imports. A query builder takes them from the names it was given, before they were qualified, and so
it names the imported classes only where these were given without stray white space. -/

namespace Scaffold
open Text Naming Source Recipe

theorem Qualifier.ne_nil_of_qualify {q : Qualifier} {kind : Kind} {name r : Text}
    (known : q.qualify kind name = .ok r) : name ≠ [] := by
  rintro rfl
  exact (qualify_eq_ok.1 known).1 rfl

namespace Recipe

-- stated for any frame, since a rewrite under the literal frames of the entries would unfold them
theorem append_framed_iff (front back : Text) {s t : Text} :
    front ++ s ++ back = front ++ t ++ back ↔ s = t := by
  simp

theorem firstEntry_eq_iff {model other : Text} :
    firstEntry model = firstEntry other ↔ basename model = basename other :=
  append_framed_iff _ _

theorem getEntry_eq_iff {collection other : Text} :
    getEntry collection = getEntry other ↔ basename collection = basename other :=
  append_framed_iff _ _

end Recipe

namespace Project

variable {p : Project} {name model collection m c later : Text}

/-- A class text comes from a stub that is filled in, given imports and put below a doc block. -/
def Documented (p : Project) (kind : Kind) (stub name : Text) (names entries : List Text)
    (later : Text) : Prop :=
  ∃ q base added, p.qualifier.qualify kind name = .ok q ∧ (p.rendered stub q).outcome = .ok base ∧
    addImports names base = .ok added ∧
    insertBeforeClass [DocBlock.render entries] added = .ok later

theorem documented_of_buildCollection (known : p.qualifier.qualify .model model = .ok m) :
    (p.buildCollection name (some model)).outcome = .ok later ↔
      p.Documented .collection Stub.collectionName name [m] [firstEntry m] later := by
  have asked := given_some (Qualifier.ne_nil_of_qualify known)
  simp only [buildCollection, asked, Noted.outcome_bind_eq_ok, Noted.outcome_lift, known,
    Except.ok.injEq, exists_eq_left', Documented, exists_and_left, collectionEntries]

theorem documented_of_buildQueryBuilder (known : p.qualifier.qualify .model model = .ok m)
    (known' : p.qualifier.qualify .collection collection = .ok c) :
    (p.buildQueryBuilder name (some model) (some collection)).outcome = .ok later ↔
      p.Documented .queryBuilder Stub.queryBuilderName name [m, c]
        [firstEntry model, getEntry collection] later := by
  have asked := given_some (Qualifier.ne_nil_of_qualify known)
  have asked' := given_some (Qualifier.ne_nil_of_qualify known')
  have referred : p.referred model (some collection) = .ok [m, c] := by
    simp [Project.referred, known, known', asked', bind, Except.bind, pure, Except.pure]
  simp only [buildQueryBuilder, asked, Noted.outcome_bind_eq_ok, Noted.outcome_lift, referred,
    Except.ok.injEq, exists_eq_left', Documented, exists_and_left, queryBuilderEntries, asked',
    Option.toList_some, List.map_cons, List.map_nil]

/-- A new query builder imports the qualified classes and documents the given ones; a new collection
does both with the qualified one. The two agree on a class exactly when its name is tidy. -/
theorem annotations_name_imports_iff (p : Project) {model collection m c : Text}
    (known : p.qualifier.qualify .model model = .ok m)
    (known' : p.qualifier.qualify .collection collection = .ok c) :
    (∀ name later, (p.buildQueryBuilder name (some model) (some collection)).outcome = .ok later ↔
      p.Documented .queryBuilder Stub.queryBuilderName name [m, c]
        [firstEntry model, getEntry collection] later) ∧
    (∀ other later, (p.buildCollection other (some model)).outcome = .ok later ↔
      p.Documented .collection Stub.collectionName other [m] [firstEntry m] later) ∧
    firstEntry m = "@method null|".toList ++ basename m ++ " first()".toList ∧
    getEntry c = "@method ".toList ++ basename c ++ " get()".toList ∧
    (firstEntry model = firstEntry m ↔ Tidy model) ∧
    (getEntry collection = getEntry c ↔ Tidy collection) := by
  refine ⟨fun name later => documented_of_buildQueryBuilder known known',
    fun other later => documented_of_buildCollection known, rfl, rfl, ?_, ?_⟩
  · rw [firstEntry_eq_iff, Qualifier.basename_eq_iff known]
  · rw [getEntry_eq_iff, Qualifier.basename_eq_iff known']

theorem annotations_name_imports_iff_blog :
    let p : Project := ⟨.standard Path.here, (· == "Models".toList), fun _ => none⟩
    p.qualifier.qualify .model " /Blog Post".toList = .ok "App\\Models\\Blog Post".toList ∧
    p.qualifier.qualify .collection "Posts".toList = .ok "App\\Posts".toList ∧
    firstEntry " /Blog Post".toList = firstEntry "App\\Models\\Blog Post".toList ∧
    getEntry "Posts".toList = getEntry "App\\Posts".toList := by
  intro p
  have known : p.qualifier.qualify .model " /Blog Post".toList =
      .ok "App\\Models\\Blog Post".toList := by decide +kernel
  have known' : p.qualifier.qualify .collection "Posts".toList = .ok "App\\Posts".toList := by
    decide +kernel
  obtain ⟨-, -, -, -, model, collection⟩ := annotations_name_imports_iff p known known'
  exact ⟨known, known', model.2 (by decide +kernel), collection.2 (by decide +kernel)⟩

theorem exists_ok_of_check {x : Except Fault Text} {P : Text → Prop} [DecidablePred P]
    (h : x.toOption.map (fun t => decide (P t)) = some true) : ∃ t, x = .ok t ∧ P t := by
  cases x with
  | error fault => cases h
  | ok t => exact ⟨t, rfl, of_decide_eq_true (Option.some.inj h)⟩

/-- The query builder of a model given with a space behind its name imports the model and documents
another class, which the collection of that model does not. -/
theorem query_builder_names_another :
    let p : Project := ⟨.standard Path.here, fun _ => false, fun _ => none⟩
    let documents (entry built : Text) : Bool := occurs (DocBlock.entryLine entry) built
    p.qualifier.qualify .model "User ".toList = .ok "App\\User".toList ∧
    p.qualifier.qualify .collection "UserCollection".toList = .ok "App\\UserCollection".toList ∧
    basename "App\\User".toList = "User".toList ∧
    (∃ built, (p.buildQueryBuilder "UserQueryBuilder".toList (some "User ".toList)
        (some "UserCollection".toList)).outcome = .ok built ∧
      occurs "use App\\User;".toList built ∧
      documents "@method null|User  first()".toList built ∧
      ¬ documents "@method null|User first()".toList built) ∧
    ∃ built, (p.buildCollection "UserCollection".toList (some "User ".toList)).outcome = .ok built ∧
      documents "@method null|User first()".toList built := by
  intro p documents
  refine ⟨by decide +kernel, by decide +kernel, by decide +kernel, ?_, ?_⟩
  · exact exists_ok_of_check (by decide +kernel)
  · exact exists_ok_of_check (by decide +kernel)

end Project
end Scaffold
