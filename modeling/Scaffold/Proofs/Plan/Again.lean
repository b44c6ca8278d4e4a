import Scaffold.Proofs.Naming.Location
import Scaffold.Proofs.Plan.Aftermath
import Scaffold.Proofs.Plan.Steps

/-! The same request once more. A class that was made is in the way of another of its name, as
long as the name still stands for it: a name that is not given below the root goes into the
directory customary for its kind, and a run may have made that very directory. -/

namespace Scaffold
open Text Naming

/-- The classes that a request makes, with the names they are given. -/
inductive Request.Creates : Request → Kind → Text → Prop where
  | model (name : Text) (plain : Bool) : Creates (.model name plain) .model name
  | collection (name : Text) (model : Option Text) :
    Creates (.collection name model) .collection name
  | queryBuilder (name : Text) (model collection : Option Text) :
    Creates (.queryBuilder name model collection) .queryBuilder name
  | modelCollection (name : Text) :
    Creates (.model name false) .collection (Site.collectionNameFor (studly (basename name)))
  | modelQueryBuilder (name : Text) :
    Creates (.model name false) .queryBuilder (Site.queryBuilderNameFor (studly (basename name)))

/-- The requests that name nothing but the class to be made. -/
inductive Request.Names : Request → Kind → Text → Prop where
  | model (name : Text) (plain : Bool) : Names (.model name plain) .model name
  | collection (name : Text) : Names (.collection name none) .collection name
  | queryBuilder (name : Text) : Names (.queryBuilder name none none) .queryBuilder name

theorem Request.Names.creates {request : Request} {kind : Kind} {name : Text}
    (h : request.Names kind name) : request.Creates kind name := by
  cases h with
  | model name plain => exact .model name plain
  | collection name => exact .collection name none
  | queryBuilder name => exact .queryBuilder name none none

namespace Site

variable {s : Site} {e : Disk} {request : Request} {kind : Kind} {name q : Text}
  {hazards : Hazards} {writes : List Write} {fault : Fault}

/-- A class is among those planned, with nothing in its way. -/
def Plans (s : Site) (writes : List Write) (kind : Kind) (name : Text) : Prop :=
  ∃ q action, s.qualifier.qualify kind name = .ok q ∧
    s.actionFor (s.layout.pathOf q) = .ok action ∧ ∃ w ∈ writes, w.path = s.layout.pathOf q

theorem plans_of_newClass {built : Noted Text} {w : Write}
    (known : s.qualifier.qualify kind name = .ok q)
    (made : (s.newClass q built).outcome = .ok w) (listed : ∃ v ∈ writes, v.path = w.path) :
    s.Plans writes kind name := by
  obtain ⟨action, t, free, -, rfl⟩ := newClass_eq_ok.1 made
  exact ⟨q, action, known, free, listed⟩

theorem plans_of_creates (planned : (s.plan request).outcome = .ok writes)
    (creates : request.Creates kind name) : s.Plans writes kind name := by
  cases creates with
  | model name plain =>
    cases plain with
    | true =>
      obtain ⟨q, w, known, made, rfl⟩ := planModel_plain_eq_ok.1 planned
      exact plans_of_newClass known made (by simp)
    | false =>
      obtain ⟨q, m, c, once, b, twice, plan, rfl⟩ := exists_modelPlan planned
      exact plans_of_newClass plan.known plan.built (by simp)
  | collection name model =>
    rcases planCollection_eq_ok.1 planned with
      ⟨-, q, w, known, made, rfl⟩ | ⟨m, fresh, update, -, composed, rfl⟩
    · exact plans_of_newClass known made (by simp)
    · obtain ⟨q, path, t, later, known, -, -, made, -⟩ := composedCollection_eq_ok.1 composed
      exact plans_of_newClass known made (by simp)
  | queryBuilder name model collection =>
    rcases planQueryBuilder_eq_ok.1 planned with
      ⟨-, q, w, known, -, made, rfl⟩ | ⟨m, fresh, update, -, composed, rfl⟩
    · exact plans_of_newClass known made (by simp)
    · obtain ⟨q, path, t, later, known, -, -, -, made, -⟩ := composedQueryBuilder_eq_ok.1 composed
      exact plans_of_newClass known made (by simp)
  | modelCollection name =>
    obtain ⟨q, m, c, once, b, twice, plan, rfl⟩ := exists_modelPlan planned
    obtain ⟨q, path, t, later, known, -, -, made, -⟩ := composedCollection_eq_ok.1 plan.first
    exact plans_of_newClass known made (by simp)
  | modelQueryBuilder name =>
    obtain ⟨q, m, c, once, b, twice, plan, rfl⟩ := exists_modelPlan planned
    obtain ⟨q, path, t, later, known, -, -, -, made, -⟩ :=
      composedQueryBuilder_eq_ok.1 plan.second
    exact plans_of_newClass known made (by simp)

theorem plan_of_taken (kept : s.force = false) (creates : request.Creates kind name)
    (known : s.qualifier.qualify kind name = .ok q) (taken : s.disk.holds (s.layout.pathOf q)) :
    ∃ fault, (s.plan request).outcome = .error fault := by
  cases planned : (s.plan request).outcome with
  | error fault => exact ⟨fault, rfl⟩
  | ok writes =>
    obtain ⟨found, action, same, free, -⟩ := plans_of_creates planned creates
    rw [known, Except.ok.injEq] at same
    rw [← same, actionFor_of_taken kept taken] at free
    simp at free

theorem newClass_of_taken (kept : s.force = false) (taken : s.disk.holds (s.layout.pathOf q))
    (built : Noted Text) :
    (s.newClass q built).outcome = .error (.classExists (s.layout.pathOf q).text) := by
  simp only [newClass, Noted.outcome_bind, Noted.outcome_lift, actionFor_of_taken kept taken]
  rfl

theorem plan_of_names_taken (kept : s.force = false) (names : request.Names kind name)
    (known : s.qualifier.qualify kind name = .ok q) (taken : s.disk.holds (s.layout.pathOf q)) :
    (s.plan request).outcome = .error (.classExists (s.layout.pathOf q).text) := by
  have refused := newClass_of_taken kept taken
  cases names with
  | model name plain =>
    simp only [plan, planModel, Noted.outcome_bind, Noted.outcome_lift, known, ok_bind, refused]
    rfl
  | collection name =>
    simp only [plan, planCollection, Recipe.given, Option.filter_none, Noted.outcome_bind,
      Noted.outcome_lift, known, ok_bind, refused]
    rfl
  | queryBuilder name =>
    simp only [plan, planQueryBuilder, ensureCollection, Recipe.given, Option.filter_none,
      Noted.outcome_bind, Noted.outcome_lift, known, ok_bind, pure, Except.pure, refused]
    rfl

/-- The project as a run leaves it. -/
def after (s : Site) (hazards : Hazards) (request : Request) : Site :=
  { s with disk := (s.make false hazards request).disk }

/-- The request fails, whatever the file system does, and changes nothing. -/
def Rejects (s : Site) (request : Request) (fault : Fault) : Prop :=
  ∀ hazards, (s.make false hazards request).outcome = .error fault ∧
    (s.make false hazards request).disk = s.disk

theorem rejects_of_plan (h : (s.plan request).outcome = .error fault) : s.Rejects request fault :=
  fun hazards => make_of_plan_error hazards h false

/-- The directory customary for a kind has come about. -/
def Opened (s : Site) (e : Disk) (kind : Kind) : Prop :=
  s.disk.isDirectory (s.layout.segmentPath kind.segment) = false ∧
    e.isDirectory (s.layout.segmentPath kind.segment)

/-- The name stands for the same class as before. -/
def Settled (s : Site) (e : Disk) (kind : Kind) (name : Text) : Prop :=
  s.qualifier.rooted (Qualifier.normalised name) ∨ ¬ s.Opened e kind

theorem selector_of_not_opened (grown : s.disk.Extends e) (closed : ¬ s.Opened e kind) :
    (qualifier { s with disk := e }).selector kind = s.qualifier.selector kind := by
  have same : e.isDirectory (s.layout.segmentPath kind.segment) =
      s.disk.isDirectory (s.layout.segmentPath kind.segment) := by
    cases before : s.disk.isDirectory (s.layout.segmentPath kind.segment) with
    | true => exact grown.isDirectory before
    | false => simpa [Opened, before] using closed
  funext space
  show (if e.isDirectory (s.layout.segmentPath kind.segment) then _ else _) = _
  rw [same]
  rfl

theorem qualify_of_settled (grown : s.disk.Extends e) (settled : s.Settled e kind name)
    (known : s.qualifier.qualify kind name = .ok q) :
    (qualifier { s with disk := e }).qualify kind name = .ok q := by
  rw [Qualifier.qualify_eq_ok] at known ⊢
  obtain ⟨filled, rfl⟩ := known
  refine ⟨filled, ?_⟩
  rcases settled with rooted | closed
  · have rooted' : (qualifier { s with disk := e }).rooted (Qualifier.normalised name) := rooted
    rw [if_pos rooted, if_pos rooted']
  · rw [selector_of_not_opened grown closed]
    rfl

theorem qualify_of_not_settled (moved : ¬ s.Settled e kind name)
    (known : s.qualifier.qualify kind name = .ok q) :
    q = s.layout.root ++ Qualifier.normalised name ∧
      (qualifier { s with disk := e }).qualify kind name =
        .ok (s.layout.root ++ kind.segment ++ '\\' :: Qualifier.normalised name) := by
  rw [Settled, not_or, not_not] at moved
  obtain ⟨unrooted, closed, opened⟩ := moved
  have unrooted' : ¬ (qualifier { s with disk := e }).rooted (Qualifier.normalised name) := unrooted
  have before : s.qualifier.selector kind s.layout.space = s.layout.space := if_neg (by
    show ¬ s.disk.isDirectory (s.layout.segmentPath kind.segment)
    simp [closed])
  have later : (qualifier { s with disk := e }).selector kind s.layout.space =
      s.layout.space ++ '\\' :: kind.segment := if_pos opened
  rw [Qualifier.qualify_eq_ok] at known ⊢
  obtain ⟨filled, rfl⟩ := known
  refine ⟨?_, filled, ?_⟩
  · rw [if_neg unrooted]
    show s.qualifier.selector kind s.layout.space ++ _ = _
    simp [before, Layout.root]
  · rw [if_neg unrooted']
    show _ = (qualifier { s with disk := e }).selector kind s.layout.space ++ _
    simp [later, Layout.root]

/-- A class that was made once is not made again where its name stands for it still: a request
for just that class reports it, and any other that would make it fails as well, and nothing is
changed. Where the customary directory has come about, the name stands for the class of that name
inside. -/
theorem make_again (s : Site) (kept : s.force = false) (names : request.Names kind name)
    (done : (s.make false hazards request).outcome.isOk) :
    let later := s.after hazards request
    ∃ q, s.qualifier.qualify kind name = .ok q ∧ later.disk.isFile (s.layout.pathOf q) ∧
      (s.Settled later.disk kind name →
        later.Rejects request (.classExists (s.layout.pathOf q).text)) ∧
      (¬ s.Settled later.disk kind name → ∃ inner,
        q = s.layout.root ++ Qualifier.normalised name ∧
        inner = s.layout.root ++ kind.segment ++ '\\' :: Qualifier.normalised name ∧
        later.qualifier.qualify kind name = .ok inner ∧
        (later.disk.holds (s.layout.pathOf inner) →
          later.Rejects request (.classExists (s.layout.pathOf inner).text))) ∧
      ∀ other given, request.Creates other given → s.Settled later.disk other given →
        ∃ fault, later.Rejects request fault := by
  intro later
  obtain ⟨report, made⟩ := exists_report done
  obtain ⟨planned, -, -⟩ := make_ok made
  have aftermath : Aftermath s.disk report.writes later.disk := aftermath_of_make made
  have kept' : later.force = false := kept
  have layout : later.layout = s.layout := rfl
  -- directories only come to be, so a name that none of the new ones catches is read as before
  have requalified {other : Kind} {given q : Text} (settled : s.Settled later.disk other given)
      (known : s.qualifier.qualify other given = .ok q) :
      later.qualifier.qualify other given = .ok q :=
    qualify_of_settled aftermath.grown settled known
  have written {other : Kind} {given : Text} (creates : request.Creates other given) :
      ∃ q, s.qualifier.qualify other given = .ok q ∧ later.disk.isFile (s.layout.pathOf q) := by
    obtain ⟨q, action, known, -, w, mem, path⟩ := plans_of_creates planned creates
    exact ⟨q, known, aftermath.isFile mem path⟩
  rw [← layout] at written ⊢
  obtain ⟨q, known, there⟩ := written names.creates
  refine ⟨q, known, there, fun settled => ?_, fun moved => ?_, fun other given creates settled => ?_⟩
  · have same := requalified settled known
    exact rejects_of_plan (plan_of_names_taken kept' names same (Disk.holds_of_isFile there))
  · obtain ⟨root, inside⟩ := qualify_of_not_settled moved known
    exact ⟨_, root, rfl, inside, fun taken =>
      rejects_of_plan (plan_of_names_taken kept' names inside taken)⟩
  · obtain ⟨q, known, there⟩ := written creates
    have same := requalified settled known
    obtain ⟨fault, refused⟩ := plan_of_taken kept' creates same (Disk.holds_of_isFile there)
    exact ⟨fault, rejects_of_plan refused⟩

/-- A project with nothing in it but its own directory. -/
def bareSite : Site :=
  ⟨.standard ⟨.root, ["p".toList]⟩, .empty ["p".toList], false⟩

theorem make_again_user :
    let request := Request.model "Blog/User".toList true
    let later := bareSite.after [] request
    ∃ q, bareSite.qualifier.qualify .model "Blog/User".toList = .ok q ∧
      later.disk.isFile (bareSite.layout.pathOf q) ∧
      later.Rejects request (.classExists (bareSite.layout.pathOf q).text) := by
  intro request later
  have done : (bareSite.make false [] request).outcome.isOk := by decide +kernel
  obtain ⟨q, known, there, refused, -⟩ := make_again bareSite rfl (.model _ true) done
  have settled : bareSite.Settled later.disk .model "Blog/User".toList := .inr fun opened => by
    have directory := opened.2
    revert directory
    decide +kernel
  exact ⟨q, known, there, refused settled⟩

/-- The first run makes the directory for models, and the second one goes through in it. -/
theorem make_again_goes_through :
    let request := Request.model "Models/User".toList true
    let later := bareSite.after [] request
    bareSite.force = false ∧ (bareSite.make false [] request).outcome.isOk ∧
      (later.make false [] request).outcome.isOk := by
  decide +kernel

end Site
end Scaffold
