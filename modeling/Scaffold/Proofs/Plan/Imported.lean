import Mathlib.Data.List.Forall2
import Scaffold.Proofs.Composition.Edits
import Scaffold.Proofs.Plan.Aftermath
import Scaffold.Proofs.Plan.ClassFile
import Scaffold.Proofs.Plan.Steps

/-! No import without its class. A name is qualified anew on every route that it takes through a
plan, and each time a plain name comes out the same; so the file of a class that is imported is
one of those written, or one that a check has found on the disk. -/

namespace Scaffold
open Text Naming Recipe Source

/-- The name of the class that a request is for. -/
def Request.name : Request → Text
  | .model name _ | .collection name _ | .queryBuilder name _ _ => name

namespace Site

variable {s : Site} {after : Disk} {name model q t : Text} {collection : Option Text}
  {source : Except Fault (Path × Text)} {fresh update w : Write} {writes : List Write}
  {names : List Text}

/-- What a request asks to import, for each of the files that it writes. -/
def importsOf (s : Site) : Request → Except Fault (List (List Text))
  | .model _ true => return [[]]
  | .model name false => do
    let base := studly (basename name)
    let model ← s.qualifier.qualify .model name
    let collection ← s.qualifier.qualify .collection (collectionNameFor base)
    let queryBuilder ← s.qualifier.qualify .queryBuilder (queryBuilderNameFor base)
    return [[model], [model, collection], [collection, queryBuilder]]
  | .collection name model =>
    match given model with
    | none => return [[]]
    | some model => do
      return [[← s.qualifier.qualify .model model], [← s.qualifier.qualify .collection name]]
  | .queryBuilder name model collection =>
    match given model with
    | none => return [[]]
    | some model => do
      return [← s.project.referred model collection, [← s.qualifier.qualify .queryBuilder name]]

/-- What a file starts from: a stub filled in for its class, or the source on the disk. -/
def Base (s : Site) (path : Path) (t : Text) : Prop :=
  (∃ stub name, (s.project.rendered stub name).outcome = .ok t ∧ path = s.layout.pathOf name) ∨
    ∃ what, s.disk.readSource path what = .ok t

/-- The file comes from its base by edits that ask for just these imports. -/
def Wrote (s : Site) (w : Write) (names : List Text) : Prop :=
  ∃ t, s.Base w.path t ∧ Edited t names w.content

theorem wrote_of_newModel (settled : s.qualifier.qualify .model q = .ok q)
    (h : (s.newClass q (s.project.buildModel q)).outcome = .ok w) : s.Wrote w [] := by
  obtain ⟨action, t, -, built, rfl⟩ := newClass_eq_ok.1 h
  obtain ⟨again, known, rendered⟩ := Project.rendered_of_buildModel built
  obtain rfl : again = q := Except.ok.inj (known.symm.trans settled)
  exact ⟨t, .inl ⟨_, _, rendered, rfl⟩, .refl t⟩

theorem wrote_of_newCollection {model : Option Text}
    (settled : s.qualifier.qualify .collection q = .ok q)
    (h : (s.newClass q (s.project.buildCollection q model)).outcome = .ok w) :
    ∃ names, s.project.companions model none = .ok names ∧ s.Wrote w names := by
  obtain ⟨action, t, -, built, rfl⟩ := newClass_eq_ok.1 h
  obtain ⟨again, base, names, known, rendered, asked, edited⟩ :=
    Project.edited_of_buildCollection built
  obtain rfl : again = q := Except.ok.inj (known.symm.trans settled)
  exact ⟨names, asked, base, .inl ⟨_, _, rendered, rfl⟩, edited⟩

theorem wrote_of_newQueryBuilder {model : Option Text}
    (settled : s.qualifier.qualify .queryBuilder q = .ok q)
    (h : (s.newClass q (s.project.buildQueryBuilder q model collection)).outcome = .ok w) :
    ∃ names, s.project.companions model collection = .ok names ∧ s.Wrote w names := by
  obtain ⟨action, t, -, built, rfl⟩ := newClass_eq_ok.1 h
  obtain ⟨again, base, names, known, rendered, asked, edited⟩ :=
    Project.edited_of_buildQueryBuilder built
  obtain rfl : again = q := Except.ok.inj (known.symm.trans settled)
  exact ⟨names, asked, base, .inl ⟨_, _, rendered, rfl⟩, edited⟩

theorem wrote_of_composedCollection (space : Plain s.layout.space) (plain : PlainGiven name)
    (filled : model ≠ [])
    (h : (s.composedCollection name model source).outcome = .ok (fresh, update)) :
    ∃ q path t names, s.qualifier.qualify .collection name = .ok q ∧ source = .ok (path, t) ∧
      s.project.referred model none = .ok names ∧ s.Wrote fresh names ∧
      fresh.path = s.layout.pathOf q ∧ update.path = path ∧ Edited t [q] update.content := by
  obtain ⟨q, path, t, composed, known, read, done, made, rfl⟩ := composedCollection_eq_ok.1 h
  have settled := Qualifier.requalify space plain known .collection
  obtain ⟨again, known', edited⟩ := Project.edited_of_composeCollection done
  obtain rfl : again = q := Except.ok.inj (known'.symm.trans settled)
  obtain ⟨names, asked, wrote⟩ := wrote_of_newCollection settled made
  rw [Project.companions_some filled] at asked
  exact ⟨again, path, t, names, known, read, asked, wrote, path_of_newClass made, rfl, edited⟩

theorem wrote_of_composedQueryBuilder (space : Plain s.layout.space) (plain : PlainGiven name)
    (filled : model ≠ []) {planned : List Path}
    (h : (s.composedQueryBuilder name model collection planned source).outcome =
      .ok (fresh, update)) :
    ∃ q path t names, s.qualifier.qualify .queryBuilder name = .ok q ∧
      s.ensureCollection collection planned = .ok () ∧ source = .ok (path, t) ∧
      s.project.referred model collection = .ok names ∧ s.Wrote fresh names ∧
      fresh.path = s.layout.pathOf q ∧ update.path = path ∧ Edited t [q] update.content := by
  obtain ⟨q, path, t, composed, known, there, read, done, made, rfl⟩ :=
    composedQueryBuilder_eq_ok.1 h
  have settled := Qualifier.requalify space plain known .queryBuilder
  obtain ⟨again, known', edited⟩ := Project.edited_of_composeQueryBuilder done
  obtain rfl : again = q := Except.ok.inj (known'.symm.trans settled)
  obtain ⟨names, asked, wrote⟩ := wrote_of_newQueryBuilder settled made
  rw [Project.companions_some filled] at asked
  exact ⟨again, path, t, names, known, there, read, asked, wrote, path_of_newClass made, rfl,
    edited⟩

theorem isFile_of_ensureCollection {c : Text} {planned : List Path}
    (h : s.ensureCollection collection planned = .ok ()) (present : given collection = some c) :
    ∃ q, s.qualifier.qualify .collection c = .ok q ∧
      (s.disk.isFile (s.layout.pathOf q) ∨ s.layout.pathOf q ∈ planned) := by
  simp only [ensureCollection, present, bind_eq_ok] at h
  obtain ⟨q, known, found⟩ := h
  refine ⟨q, known, ?_⟩
  split at found
  · next there => simpa using there
  · simp at found

theorem eq_of_referred (known : s.qualifier.qualify .model model = .ok q)
    (asked : s.project.referred model collection = .ok names) :
    (given collection = none ∧ names = [q]) ∨ ∃ c placed, given collection = some c ∧
      s.qualifier.qualify .collection c = .ok placed ∧ names = [q, placed] := by
  obtain ⟨found, known', which⟩ := Project.referred_eq_ok.1 asked
  obtain rfl : found = q := Except.ok.inj (known'.symm.trans known)
  exact which

theorem eq_of_referred_none (known : s.qualifier.qualify .model model = .ok q)
    (asked : s.project.referred model none = .ok names) : names = [q] := by
  rcases eq_of_referred known asked with ⟨-, rfl⟩ | ⟨c, placed, absurd, -⟩
  · rfl
  · simp [given] at absurd

/-- The file comes from its base by edits that ask for these imports, all of whose classes have
their files. -/
def Grounded (s : Site) (after : Disk) (w : Write) (names : List Text) : Prop :=
  s.Wrote w names ∧ ∀ n ∈ names, after.isFile (s.layout.pathOf n)

theorem Wrote.edited {v : Write} {part : Text} (wrote : s.Wrote w names) (path : v.path = w.path)
    (edited : Edited w.content [part] v.content) : s.Wrote v (names ++ [part]) := by
  obtain ⟨base, found, before⟩ := wrote
  exact ⟨base, path ▸ found, before.trans edited⟩

theorem grounded_model (space : Plain s.layout.space) (plain : PlainGiven name)
    (aftermath : Aftermath s.disk writes after) {bare : Bool}
    (planned : (s.planModel name bare).outcome = .ok writes) :
    ∃ asked, s.importsOf (.model name bare) = .ok asked ∧
      List.Forall₂ (s.Grounded after) writes asked := by
  cases bare with
  | true =>
    obtain ⟨q, w, known, made, rfl⟩ := planModel_plain_eq_ok.1 planned
    have wrote := wrote_of_newModel (Qualifier.requalify space plain known .model) made
    exact ⟨[[]], rfl, .cons ⟨wrote, by simp⟩ .nil⟩
  | false =>
    obtain ⟨q, m, collection, once, builder, twice, plan, rfl⟩ := exists_modelPlan planned
    obtain ⟨short, short'⟩ := plain_partNames plain.basename
    have settled := Qualifier.requalify space plain plan.known .model
    have filled : q ≠ [] := by
      obtain ⟨relative, rfl, -⟩ := Qualifier.exists_relative plain plan.known
      simp [Qualifier.root]
    -- the model is a stub to begin with, and both parts are composed into it
    have wrote := wrote_of_newModel settled plan.built
    obtain ⟨c, path, t, names, knownC, source, asked, wroteC, atC, atOnce, editedC⟩ :=
      wrote_of_composedCollection space short.toPlain.given filled plan.first
    obtain ⟨rfl, rfl⟩ : m.path = path ∧ m.content = t := by simpa using source
    obtain ⟨b, path, t, names', knownB, -, source', asked', wroteB, atB, atTwice, editedB⟩ :=
      wrote_of_composedQueryBuilder space short'.toPlain.given filled plan.second
    obtain ⟨rfl, rfl⟩ : m.path = path ∧ once.content = t := by simpa using source'
    have updated : s.Wrote once [c] := wrote.edited atOnce editedC
    have final : s.Wrote { m with content := twice.content } [c, b] :=
      updated.edited atOnce.symm editedB
    obtain rfl := eq_of_referred_none settled asked
    obtain rfl : names' = [q, c] := by
      have named : given (some (collectionNameFor (studly (basename name)))) =
          some (collectionNameFor (studly (basename name))) := given_some short.ne_nil
      rcases eq_of_referred settled asked' with ⟨absent, -⟩ | ⟨n, placed, present, known, rfl⟩
      · simp [named] at absent
      · obtain rfl := Option.some.inj (named.symm.trans present)
        rw [Except.ok.inj (known.symm.trans knownC)]
    have there := aftermath.isFile (w := { m with content := twice.content }) (by simp) plan.path
    have thereC := aftermath.isFile (by simp) atC
    have thereB := aftermath.isFile (by simp) atB
    refine ⟨[[q], [q, c], [c, b]], ?_, .cons ⟨wroteC, by simpa using there⟩
      (.cons ⟨wroteB, by simpa using ⟨there, thereC⟩⟩
        (.cons ⟨final, by simpa using ⟨thereC, thereB⟩⟩ .nil))⟩
    simp [importsOf, plan.known, knownC, knownB, bind, Except.bind, pure, Except.pure]

theorem grounded_collection {model : Option Text} (space : Plain s.layout.space)
    (plain : PlainGiven name) (aftermath : Aftermath s.disk writes after)
    (planned : (s.planCollection name model).outcome = .ok writes) :
    ∃ asked, s.importsOf (.collection name model) = .ok asked ∧
      List.Forall₂ (s.Grounded after) writes asked := by
  rcases planCollection_eq_ok.1 planned with
    ⟨absent, q, w, known, made, rfl⟩ | ⟨m, fresh, update, present, composed, rfl⟩
  · obtain ⟨names, asked, wrote⟩ :=
      wrote_of_newCollection (Qualifier.requalify space plain known .collection) made
    obtain rfl : [] = names := Except.ok.inj asked
    exact ⟨[[]], by rw [importsOf, absent]; rfl, .cons ⟨wrote, by simp⟩ .nil⟩
  · obtain ⟨c, path, t, names, known, source, asked, wrote, atFresh, atUpdate, edited⟩ :=
      wrote_of_composedCollection space plain (ne_nil_of_given present) composed
    obtain ⟨q, what, found, atModel, read⟩ := exists_of_modelSource source
    obtain rfl := eq_of_referred_none found asked
    have base : s.Wrote update [c] := ⟨t, .inr ⟨what, atUpdate ▸ read⟩, edited⟩
    have there := aftermath.isFile (by simp) (atUpdate.trans atModel)
    have there' := aftermath.isFile (by simp) atFresh
    refine ⟨[[q], [c]], ?_, .cons ⟨wrote, by simpa using there⟩
      (.cons ⟨base, by simpa using there'⟩ .nil)⟩
    simp [importsOf, present, found, known, bind, Except.bind, pure, Except.pure]

theorem grounded_queryBuilder {model : Option Text} (space : Plain s.layout.space)
    (plain : PlainGiven name) (aftermath : Aftermath s.disk writes after)
    (planned : (s.planQueryBuilder name model collection).outcome = .ok writes) :
    ∃ asked, s.importsOf (.queryBuilder name model collection) = .ok asked ∧
      List.Forall₂ (s.Grounded after) writes asked := by
  rcases planQueryBuilder_eq_ok.1 planned with
    ⟨absent, q, w, known, -, made, rfl⟩ | ⟨m, fresh, update, present, composed, rfl⟩
  · obtain ⟨names, asked, wrote⟩ :=
      wrote_of_newQueryBuilder (Qualifier.requalify space plain known .queryBuilder) made
    obtain rfl : [] = names := Except.ok.inj asked
    exact ⟨[[]], by rw [importsOf, absent]; rfl, .cons ⟨wrote, by simp⟩ .nil⟩
  · obtain ⟨b, path, t, names, known, ensured, source, asked, wrote, atFresh, atUpdate, edited⟩ :=
      wrote_of_composedQueryBuilder space plain (ne_nil_of_given present) composed
    obtain ⟨q, what, found, atModel, read⟩ := exists_of_modelSource source
    have base : s.Wrote update [b] := ⟨t, .inr ⟨what, atUpdate ▸ read⟩, edited⟩
    have there := aftermath.isFile (by simp) (atUpdate.trans atModel)
    have there' := aftermath.isFile (by simp) atFresh
    have all : ∀ n ∈ names, after.isFile (s.layout.pathOf n) := by
      rcases eq_of_referred found asked with ⟨-, rfl⟩ | ⟨c, placed, collected, known', rfl⟩
      · simpa using there
      · obtain ⟨again, known'', checked⟩ := isFile_of_ensureCollection ensured collected
        obtain rfl : again = placed := Except.ok.inj (known''.symm.trans known')
        have kept := aftermath.kept _ (by simpa using checked)
        simpa using ⟨there, kept⟩
    refine ⟨[names, [b]], ?_, .cons ⟨wrote, all⟩ (.cons ⟨base, by simpa using there'⟩ .nil)⟩
    simp [importsOf, present, asked, known, bind, Except.bind, pure, Except.pure]

/-- A run that goes through leaves no import without its class: each of its files comes from its
base by edits that ask for known imports, and the file of every class that they ask for is there
in the end. -/
theorem make_grounded (s : Site) {request : Request} {hazards : Hazards} {report : Report}
    (space : Plain s.layout.space) (plain : PlainGiven request.name)
    (done : (s.make false hazards request).outcome = .ok report) :
    ∃ asked, s.importsOf request = .ok asked ∧
      List.Forall₂ (s.Grounded (s.make false hazards request).disk) report.writes asked := by
  have aftermath := aftermath_of_make done
  obtain ⟨planned, -, -⟩ := make_ok done
  cases request with
  | model name bare => exact grounded_model space plain aftermath planned
  | collection name model => exact grounded_collection space plain aftermath planned
  | queryBuilder name model collection =>
    exact grounded_queryBuilder space plain aftermath planned

/-- A project that holds one model, to be overwritten. -/
def userSite : Site :=
  let s : Site := ⟨.standard ⟨.root, ["p".toList]⟩, .empty ["p".toList], true⟩
  { s with disk := (s.make false [] (.model "User".toList true)).disk }

theorem make_grounded_overwriting :
    let request := Request.collection "App/User".toList (some "User".toList)
    ∃ report, (userSite.make false [] request).outcome = .ok report ∧
      ∃ asked, userSite.importsOf request = .ok asked ∧
        List.Forall₂ (userSite.Grounded (userSite.make false [] request).disk)
          report.writes asked := by
  intro request
  have succeeds : (userSite.make false [] request).outcome.isOk := by decide +kernel
  obtain ⟨report, done⟩ := exists_report succeeds
  exact ⟨report, done, make_grounded userSite (by decide +kernel) (by decide +kernel) done⟩

end Site
end Scaffold
