import Scaffold.Proofs.Composition.Injection
import Scaffold.Proofs.Composition.Project

/-! Composing and building as edits, one after the other, of the text of a class. Which names
they ask to import is known beforehand: the class that is composed into a model, or those that a
new class refers to. -/

namespace Scaffold
open Text Naming Recipe

namespace Source

/-- What is done to the text of a class: names are imported, a block goes into its body, it gets a
doc block, or entries go into the one it has. -/
inductive Edit where
  | imports (names : List Text)
  | body (block : Text)
  | doc (given : List Text)
  | entries (added : List Text)
  deriving DecidableEq, Repr

namespace Edit

def run (t : Text) : Edit → Except Fault Text
  | imports names => addImports names t
  | body block => appendToBody block t
  | doc given => insertBeforeClass [DocBlock.render given] t
  | entries added => annotate added t

def runAll (edits : List Edit) (t : Text) : Except Fault Text :=
  edits.foldlM run t

/-- The names to be imported, whether they are already or not. -/
def asked (edits : List Edit) : List Text :=
  edits.flatMap fun
    | imports names => names
    | _ => []

end Edit

/-- The later text comes about by edits that ask for just these imports. -/
def Edited (t : Text) (names : List Text) (later : Text) : Prop :=
  ∃ edits, Edit.runAll edits t = .ok later ∧ Edit.asked edits = names

namespace Edited

variable {t middle later : Text} {names more : List Text}

theorem refl (t : Text) : Edited t [] t :=
  ⟨[], rfl, rfl⟩

theorem trans (first : Edited t names middle) (second : Edited middle more later) :
    Edited t (names ++ more) later := by
  obtain ⟨edits, ran, rfl⟩ := first
  obtain ⟨others, ran', rfl⟩ := second
  refine ⟨edits ++ others, ?_, by simp [Edit.asked]⟩
  rw [Edit.runAll] at ran ran' ⊢
  rw [List.foldlM_append, bind_eq_ok]
  exact ⟨middle, ran, ran'⟩

theorem of_run (edit : Edit) (h : edit.run t = .ok later) :
    Edited t (Edit.asked [edit]) later := by
  refine ⟨[edit], ?_, rfl⟩
  rw [Edit.runAll, List.foldlM_cons, bind_eq_ok]
  exact ⟨later, h, rfl⟩

theorem imports (h : addImports names t = .ok later) : Edited t names later := by
  simpa [Edit.asked] using of_run (.imports names) h

theorem body {block : Text} (h : appendToBody block t = .ok later) : Edited t [] later :=
  of_run (.body block) h

theorem doc {given : List Text} (h : insertBeforeClass [DocBlock.render given] t = .ok later) :
    Edited t [] later :=
  of_run (.doc given) h

theorem entries {entries : List Text} (h : annotate entries t = .ok later) : Edited t [] later :=
  of_run (.entries entries) h

end Edited
end Source

open Source

theorem Recipe.edited_of_inject {names : List Text} {block t later : Text}
    {marker subject : Option Text} (h : inject names block marker subject t = .ok later) :
    Edited t names later := by
  obtain ⟨added, importing, appended⟩ := exists_of_inject h
  simpa using (Edited.imports importing).trans (.body appended)

namespace Project

variable {p : Project} {name t later : Text} {model collection : Option Text}

theorem edited_of_composeCollection
    (h : (p.composeCollection name model t).outcome = .ok later) :
    ∃ q, p.qualifier.qualify .collection name = .ok q ∧ Edited t [q] later := by
  simp only [composeCollection, Noted.outcome_bind_eq_ok, Noted.outcome_lift] at h
  obtain ⟨q, known, noted, -, block, -, injected⟩ := h
  exact ⟨q, known, edited_of_inject injected⟩

theorem edited_of_composeQueryBuilder
    (h : (p.composeQueryBuilder name model t).outcome = .ok later) :
    ∃ q, p.qualifier.qualify .queryBuilder name = .ok q ∧ Edited t [q] later := by
  simp only [composeQueryBuilder, Noted.outcome_bind_eq_ok, Noted.outcome_lift] at h
  obtain ⟨q, known, noted, -, block, -, composed, injected, annotated⟩ := h
  exact ⟨q, known, (edited_of_inject injected).trans (.entries annotated)⟩

theorem rendered_of_buildModel (h : (p.buildModel name).outcome = .ok later) :
    ∃ q, p.qualifier.qualify .model name = .ok q ∧
      (p.rendered Stub.modelName q).outcome = .ok later := by
  simpa only [buildModel, Noted.outcome_bind_eq_ok, Noted.outcome_lift] using h

/-- The classes that a new one asks to import: those it refers to, if it has a model. -/
def companions (p : Project) (model collection : Option Text) : Except Fault (List Text) :=
  match given model with
  | none => return []
  | some model => p.referred model collection

theorem companions_some {m : Text} (filled : m ≠ []) :
    p.companions (some m) collection = p.referred m collection := by
  rw [companions, given_some filled]

theorem referred_eq_ok {m : Text} {names : List Text} :
    p.referred m collection = .ok names ↔ ∃ q, p.qualifier.qualify .model m = .ok q ∧
      ((given collection = none ∧ names = [q]) ∨ ∃ c placed, given collection = some c ∧
        p.qualifier.qualify .collection c = .ok placed ∧ names = [q, placed]) := by
  unfold referred
  simp only [bind_eq_ok]
  cases given collection <;> simp [bind_eq_ok, pure, Except.pure, @eq_comm _ names]

theorem edited_of_buildCollection (h : (p.buildCollection name model).outcome = .ok later) :
    ∃ q base names, p.qualifier.qualify .collection name = .ok q ∧
      (p.rendered Stub.collectionName q).outcome = .ok base ∧
      p.companions model none = .ok names ∧ Edited base names later := by
  simp only [buildCollection, Noted.outcome_bind_eq_ok, Noted.outcome_lift] at h
  obtain ⟨q, known, base, rendered, h⟩ := h
  unfold companions
  cases asked : given model with
  | none =>
    rw [asked] at h
    obtain rfl : base = later := by simpa using h
    exact ⟨q, base, [], known, rendered, rfl, .refl base⟩
  | some m =>
    rw [asked] at h
    simp only [Noted.outcome_bind_eq_ok, Noted.outcome_lift] at h
    obtain ⟨qualified, found, added, importing, inserted⟩ := h
    refine ⟨q, base, [qualified], known, rendered, ?_, ?_⟩
    · simp [referred, found, Recipe.given, bind, Except.bind, pure, Except.pure]
    · simpa using (Edited.imports importing).trans (.doc inserted)

theorem edited_of_buildQueryBuilder
    (h : (p.buildQueryBuilder name model collection).outcome = .ok later) :
    ∃ q base names, p.qualifier.qualify .queryBuilder name = .ok q ∧
      (p.rendered Stub.queryBuilderName q).outcome = .ok base ∧
      p.companions model collection = .ok names ∧ Edited base names later := by
  simp only [buildQueryBuilder, Noted.outcome_bind_eq_ok, Noted.outcome_lift] at h
  obtain ⟨q, known, base, rendered, h⟩ := h
  unfold companions
  cases asked : given model with
  | none =>
    rw [asked] at h
    obtain rfl : base = later := by simpa using h
    exact ⟨q, base, [], known, rendered, rfl, .refl base⟩
  | some m =>
    rw [asked] at h
    simp only [Noted.outcome_bind_eq_ok, Noted.outcome_lift] at h
    obtain ⟨names, found, added, importing, inserted⟩ := h
    refine ⟨q, base, names, known, rendered, found, ?_⟩
    simpa using (Edited.imports importing).trans (.doc inserted)

end Project
end Scaffold
