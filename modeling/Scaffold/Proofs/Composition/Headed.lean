import Scaffold.Proofs.Composition.Annotated
import Scaffold.Proofs.Naming.Studly
import Scaffold.Proofs.Source.Heading

/-! The doc block of a new class. It is written for the model that the class belongs to and put
above the declaration; nothing looks whether the stub has a block there. So what a project has
written above the class in a stub of its own stays in the text, but not with the class, whereas a
composition into a model would have merged the two. -/

namespace Scaffold
open Text Naming Source Recipe

namespace Recipe

-- stated for any frame, since a rewrite under the literal frames of the entries would unfold them
theorem open_framed {front back : Text} (front_free : '/' ∉ front) (back_free : '/' ∉ back)
    (name : Text) : ¬ DocBlock.closer <:+: front ++ basename name ++ back := by
  intro found
  have slash : '/' ∈ front ++ basename name ++ back := found.subset (by decide)
  rcases List.mem_append.1 slash with within | within
  · rcases List.mem_append.1 within with within | within
    · exact front_free within
    · exact (not_mem_basename name).2 within
  · exact back_free within

theorem open_firstEntry (model : Text) : ¬ DocBlock.closer <:+: firstEntry model :=
  open_framed (by decide) (by decide) model

theorem open_getEntry (collection : Text) : ¬ DocBlock.closer <:+: getEntry collection :=
  open_framed (by decide) (by decide) collection

theorem framed_ne {front front' back back' : Text} (ends : ¬ back' <:+ back)
    (short : back'.length ≤ back.length) (s t : Text) :
    front ++ s ++ back ≠ front' ++ t ++ back' := by
  intro same
  have behind : back <:+ front' ++ t ++ back' := same ▸ List.suffix_append ..
  exact ends (List.suffix_of_suffix_length_le (List.suffix_append ..) behind short)

theorem firstEntry_ne_getEntry (model collection : Text) :
    firstEntry model ≠ getEntry collection :=
  framed_ne (by decide) (by decide) _ _

theorem open_queryBuilderEntries (model : Text) (collection : Option Text) :
    ∀ entry ∈ queryBuilderEntries model collection, ¬ DocBlock.closer <:+: entry := by
  intro entry mem
  simp only [queryBuilderEntries, List.mem_cons, List.mem_map] at mem
  rcases mem with rfl | ⟨c, -, rfl⟩
  · exact open_firstEntry model
  · exact open_getEntry c

theorem nodup_queryBuilderEntries (model : Text) (collection : Option Text) :
    (queryBuilderEntries model collection).Nodup := by
  unfold queryBuilderEntries
  cases given collection with
  | none => simp
  | some c => simpa using firstEntry_ne_getEntry model c

end Recipe

namespace Project

variable {p : Project}

/-- How a new class comes about. Without a model it is the stub as rendered. With one, the classes
that it refers to are imported and it gets a block above its declaration. That is what a merge would
come to where the text has no block for the class yet. Where it has one, a merge would have kept its
entries, and the new class is left with those that were written for the model. -/
theorem built_classes_headed (p : Project) (name : Text) (model collection : Option Text)
    (later : Text) :
    ((p.buildCollection name model).outcome = .ok later →
      ∃ q base, p.qualifier.qualify .collection name = .ok q ∧
        (p.rendered Stub.collectionName q).outcome = .ok base ∧
        (given model = none → later = base) ∧
        ∀ m, given model = some m → ∃ r added, p.qualifier.qualify .model m = .ok r ∧
          addImports [r] base = .ok added ∧ Headed (collectionEntries r) added later) ∧
    ((p.buildQueryBuilder name model collection).outcome = .ok later →
      ∃ q base, p.qualifier.qualify .queryBuilder name = .ok q ∧
        (p.rendered Stub.queryBuilderName q).outcome = .ok base ∧
        (given model = none → later = base) ∧
        ∀ m, given model = some m → ∃ names added, p.referred m collection = .ok names ∧
          addImports names base = .ok added ∧
          Headed (queryBuilderEntries m collection) added later) := by
  constructor
  · intro built
    simp only [buildCollection, Noted.outcome_bind_eq_ok, Noted.outcome_lift] at built
    obtain ⟨q, known, base, rendered, built⟩ := built
    refine ⟨q, base, known, rendered, fun absent => ?_, fun m asked => ?_⟩
    · rw [absent] at built
      simpa using built.symm
    · rw [asked] at built
      simp only [Noted.outcome_bind_eq_ok, Noted.outcome_lift] at built
      obtain ⟨r, known, added, imported, above⟩ := built
      refine ⟨r, added, known, imported,
        .of_insertBeforeClass (by simp [collectionEntries]) ?_ above⟩
      simpa [collectionEntries] using open_firstEntry r
  · intro built
    simp only [buildQueryBuilder, Noted.outcome_bind_eq_ok, Noted.outcome_lift] at built
    obtain ⟨q, known, base, rendered, built⟩ := built
    refine ⟨q, base, known, rendered, fun absent => ?_, fun m asked => ?_⟩
    · rw [absent] at built
      simpa using built.symm
    · rw [asked] at built
      simp only [Noted.outcome_bind_eq_ok, Noted.outcome_lift] at built
      obtain ⟨names, referred, added, imported, above⟩ := built
      exact ⟨names, added, referred, imported, .of_insertBeforeClass
        (nodup_queryBuilderEntries m collection) (open_queryBuilderEntries m collection) above⟩

/-- A collection stub with a block of its own above the class. -/
def templateStub : Text :=
  ("<?php\n\nnamespace \x7b\x7b namespace \x7d\x7d;\n\n/**\n * @template TKey\n */\n" ++
    "class \x7b\x7b class \x7d\x7d extends Collection\n\x7b\n    //\n\x7d\n").toList

def templateProject : Project where
  layout := .standard .here
  occupied _ := false
  stubFile stub :=
    if stub = Stub.collectionName then some (.text templateStub) else none

theorem built_classes_headed_user :
    let p := templateProject
    let user := some "User".toList
    let first := "@method null|User first()".toList
    let get := "@method User get()".toList
    (∃ added later, (p.buildCollection "Users".toList user).outcome = .ok later ∧
      Sheet.classEntries? later = some [first] ∧ Headed [first] added later) ∧
    ∃ added later, (p.buildQueryBuilder "UserQuery".toList user user).outcome = .ok later ∧
      Sheet.classEntries? later = some [first, get] ∧ Headed [first, get] added later := by
  intro p user first get
  constructor
  · obtain ⟨later, built, read⟩ : ∃ later,
        (p.buildCollection "Users".toList user).outcome = .ok later ∧
          Sheet.classEntries? later = some [first] := exists_ok_of_check (by decide +kernel)
    obtain ⟨q, base, -, -, -, asked⟩ := (built_classes_headed p _ user none later).1 built
    obtain ⟨r, added, known, -, headed⟩ := asked "User".toList (by decide +kernel)
    have named : p.qualifier.qualify .model "User".toList = .ok "App\\User".toList := by
      decide +kernel
    obtain rfl : "App\\User".toList = r := Except.ok.inj (named.symm.trans known)
    exact ⟨added, later, built, read, headed⟩
  · obtain ⟨later, built, read⟩ : ∃ later,
        (p.buildQueryBuilder "UserQuery".toList user user).outcome = .ok later ∧
          Sheet.classEntries? later = some [first, get] := exists_ok_of_check (by decide +kernel)
    obtain ⟨q, base, -, -, -, asked⟩ := (built_classes_headed p _ user user later).2 built
    obtain ⟨names, added, -, -, headed⟩ := asked "User".toList (by decide +kernel)
    exact ⟨added, later, built, read, headed⟩

/-- A new collection does without the entry in its stub, which a merge would have kept. -/
theorem built_collection_loses_entries :
    let entriesOf (text : Except Fault Text) := text.toOption.bind Sheet.classEntries?
    let p := templateProject
    let base := (p.rendered Stub.collectionName "App\\UserCollection".toList).outcome
    let built := (p.buildCollection "UserCollection".toList (some "User".toList)).outcome
    let fresh := ["@method null|User first()".toList]
    entriesOf base = some ["@template TKey".toList] ∧
      entriesOf built = some fresh ∧
      entriesOf (base >>= addImports ["App\\User".toList] >>= annotate fresh) =
        some ("@template TKey".toList :: fresh) := by
  decide +kernel

end Project
end Scaffold
