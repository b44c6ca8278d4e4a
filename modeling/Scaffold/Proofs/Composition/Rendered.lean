import Scaffold.Proofs.Composition.Fresh

/-! Stubs filled in for a name. Nine passes put the parts of the name in, one spelling of a slot
after the other, and each looks through all that the passes before have put in. So a stub is filled
in as it should be unless the name, with what stands around it in the stub, makes up a spelling
whose turn is still to come. -/

namespace Scaffold
open Text Naming

namespace Project

variable {p : Project} {stub name t : Text} {kind : Kind}

theorem rendered_outcome (read : (p.stub stub).outcome = .ok t) (name : Text) :
    (p.rendered stub name).outcome = .ok (Stub.fillAll name p.layout.root t) := by
  rw [rendered, Noted.outcome_bind, read]
  rfl

theorem stub_label (bare : p.stubFile kind.label = none) :
    (p.stub kind.label).outcome =
      .ok (kind.sheet Stub.Slot.space.mark Stub.Slot.className.mark).text := by
  rw [Project.stub, bare, kind.builtin?_label]
  rfl

/-- What rendering a stub comes to. Each spelling that stands in the stub gives way to its value in
its own pass, and only the passes behind that one look at the value again. Where no pass finds more
occurrences than the stub has, that is one substitution. From the built-in stub of a kind comes the
class with the namespace and the name that the passes leave of these two: the very ones of the
given name, unless a spelling that is filled later stands in one of them. -/
theorem rendered_by_passes (p : Project) (name : Text) :
    let fillings := Stub.fillings name p.layout.root
    (∀ stub t, (p.stub stub).outcome = .ok t →
      (p.rendered stub name).outcome = .ok (replaceInTurn fillings t) ∧
      (∀ before n value behind front back, fillings = before ++ (n, value) :: behind →
        t = front ++ (n ++ back) →
        replaceInTurn fillings t =
          replaceInTurn behind (replaceInTurn (before ++ [(n, value)]) front ++
            (value ++ replaceInTurn (before ++ [(n, value)]) back))) ∧
      (Undisturbed fillings t → replaceInTurn fillings t = replaceAtOnce fillings t)) ∧
    ∀ kind : Kind, p.stubFile kind.label = none →
      ∃ space base,
        (p.rendered kind.label name).outcome = .ok (kind.sheet space base).text ∧
        space = replaceInTurn fillings Stub.Slot.space.mark ∧
        base = replaceInTurn fillings Stub.Slot.className.mark ∧
        ((∀ spelling ∈ Stub.spellings.drop 2, ¬ spelling <:+: namespaceOf name) →
          space = namespaceOf name) ∧
        (¬ Stub.braced Stub.Slot.className.word <:+: lastSegment name →
          base = lastSegment name) := by
  intro fillings
  have passes (t : Text) : replaceInTurn fillings t = Stub.fillAll name p.layout.root t :=
    (Stub.fillAll_eq_replaceInTurn name p.layout.root t).symm
  have sound : Discernible (fillings.map Prod.fst) := Stub.discernible_spellings
  refine ⟨fun stub t read => ⟨?_, ?_, replaceInTurn_eq sound⟩, fun kind bare => ?_⟩
  · rw [rendered_outcome read, passes]
  · rintro before n value behind front back split rfl
    rw [split] at sound ⊢
    exact replaceInTurn_needle sound front back
  · rw [passes, passes]
    refine ⟨_, _, ?_, rfl, rfl, Stub.fillAll_space_mark, Stub.fillAll_class_mark⟩
    rw [rendered_outcome (stub_label bare), kind.fillAll_marks]

/-- A stub with another spelling for each slot. -/
def dummyStub : Text :=
  "namespace DummyNamespace;\nuse \x7b\x7brootNamespace\x7d\x7dX;\nclass \x7b\x7b class \x7d\x7d".toList

def dummyProject : Project where
  layout := .standard .here
  occupied _ := false
  stubFile stub :=
    if stub = Stub.modelName then some (.text dummyStub) else none

theorem rendered_by_passes_user :
    let fillings := Stub.fillings "App\\Models\\User".toList dummyProject.layout.root
    (dummyProject.rendered Stub.modelName "App\\Models\\User".toList).outcome =
        .ok (replaceInTurn fillings dummyStub) ∧
      replaceInTurn fillings dummyStub = replaceAtOnce fillings dummyStub ∧
      replaceAtOnce fillings dummyStub = "namespace App\\Models;\nuse App\\X;\nclass User".toList ∧
      (dummyProject.rendered Kind.collection.label "App\\Models\\User".toList).outcome =
        .ok (Kind.collection.sheetOf "App\\Models\\User".toList).text := by
  intro fillings
  obtain ⟨stubs, builtin⟩ := rendered_by_passes dummyProject "App\\Models\\User".toList
  obtain ⟨whole, -, atOnce⟩ := stubs Stub.modelName dummyStub (by decide +kernel)
  obtain ⟨space, base, collection, -, -, declared, named⟩ :=
    builtin .collection (by decide +kernel)
  refine ⟨whole, atOnce (by decide +kernel), by decide +kernel, ?_⟩
  rw [collection, declared (by decide +kernel), named (by decide +kernel), Kind.sheetOf]

/-- A namespace called like the slot of the class is taken for it. -/
theorem rendered_dummy_namespace :
    let p : Project := { dummyProject with stubFile := fun _ => none }
    let name := "App\\DummyClass\\Foo".toList
    p.qualifier.qualify .model "DummyClass/Foo".toList = .ok name ∧
      (p.buildModel "DummyClass/Foo".toList).outcome =
        .ok (Kind.model.sheet "App\\Foo".toList "Foo".toList).text ∧
      replaceAtOnce (Stub.fillings name p.layout.root) Stub.model =
        (Kind.model.sheetOf name).text ∧
      (Kind.model.sheetOf name).text ≠
        (Kind.model.sheet "App\\Foo".toList "Foo".toList).text := by
  decide +kernel

end Project
end Scaffold
