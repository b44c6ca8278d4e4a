import Mathlib.Data.List.Forall2
import Scaffold.Proofs.Disk.Stopped
import Scaffold.Proofs.Naming.Location
import Scaffold.Proofs.Plan.Steps

/-! Which classes a plan writes. The classes that are made for a model come first and the model
comes last, each in the file of its own qualified name. -/

namespace Scaffold
open Text Naming

/-- The collection and the query builder that a request is for or makes up for its model. -/
def Request.parts : Request → List (Kind × Text)
  | .model _ true => []
  | .model name false =>
    [(.collection, Site.collectionNameFor (studly (basename name))),
      (.queryBuilder, Site.queryBuilderNameFor (studly (basename name)))]
  | .collection name _ => [(.collection, name)]
  | .queryBuilder name _ _ => [(.queryBuilder, name)]

/-- The model that is made, or that the parts are composed into. -/
def Request.model? : Request → Option Text
  | .model name _ => some name
  | .collection _ composed | .queryBuilder _ composed _ => Recipe.given composed

namespace Layout

variable {layout : Layout} {relative other : Text}

theorem getLast?_pathOf (free : '/' ∉ relative) :
    (layout.pathOf (layout.root ++ relative)).parts.getLast? = some (layout.beyond.getLast?.getD
      ((layout.kept (layout.root ++ relative)).getLastD ['.'] ++ layout.ending)) := by
  rw [pathOf_eq_fileParts free, Path.append_relative, fileParts, List.getLast?_append,
    List.getLast?_append, List.getLast?_cons]
  rfl

theorem clearOf_pathOf (free : '/' ∉ relative) (free' : '/' ∉ other) :
    (layout.pathOf (layout.root ++ relative)).ClearOf
      (layout.pathOf (layout.root ++ other)) := by
  refine ⟨_, getLast?_pathOf free, fun d same => ?_⟩
  rw [getLast?_pathOf free', Option.getD_some] at same
  cases inner : layout.beyond.getLast? with
  | some last =>
    rw [inner, Option.getD_some, Option.getD_some] at same
    have longer := d.length_freshName last
    rw [← same] at longer
    exact Nat.lt_irrefl _ longer
  | none =>
    have dot : '.' ∈ layout.ending := List.mem_of_mem_head? layout.head?_ending
    rw [inner, Option.getD_none, Option.getD_none] at same
    have fresh : '.' ∈ d.freshName _ := same ▸ List.mem_append_right _ dot
    rw [Disk.freshName, List.mem_replicate] at fresh
    exact absurd fresh.2 (by decide)

end Layout

namespace Site

variable {s : Site} {request : Request} {name model : Text} {writes parts models : List Write}
  {v w : Write}

/-- The write goes to the file of the class of that kind and name. -/
def IsFileOf (s : Site) (named : Kind × Text) (w : Write) : Prop :=
  ∃ q, s.qualifier.qualify named.1 named.2 = .ok q ∧ w.path = s.layout.pathOf q

theorem IsFileOf.clearOf {one two : Kind × Text} (h : s.IsFileOf one v) (h' : s.IsFileOf two w) :
    v.path.ClearOf w.path := by
  obtain ⟨q, known, path⟩ := h
  obtain ⟨q', known', path'⟩ := h'
  obtain ⟨relative, rfl, free⟩ := Qualifier.exists_root_append known
  obtain ⟨relative', rfl, free'⟩ := Qualifier.exists_root_append known'
  rw [path, path']
  exact Layout.clearOf_pathOf free free'

/-- The writes of a plan: the parts, and then the model. -/
structure Files (s : Site) (request : Request) (parts models : List Write) : Prop where
  parts : List.Forall₂ s.IsFileOf request.parts parts
  model : List.Forall₂ (fun model => s.IsFileOf (.model, model)) request.model?.toList models

theorem isFileOf_newClass {kind : Kind} {q : Text} {built : Noted Text}
    (known : s.qualifier.qualify kind name = .ok q)
    (made : (s.newClass q built).outcome = .ok w) : s.IsFileOf (kind, name) w :=
  ⟨q, known, path_of_newClass made⟩

theorem isFileOf_modelSource {marker t composed : Text} {path : Path}
    (h : s.modelSource model marker = .ok (path, t)) :
    s.IsFileOf (.model, model) ⟨path, .updated, composed⟩ := by
  obtain ⟨q, what, known, path, -⟩ := exists_of_modelSource h
  exact ⟨q, known, path⟩

theorem exists_files (planned : (s.plan request).outcome = .ok writes) :
    ∃ parts models, writes = parts ++ models ∧ s.Files request parts models := by
  -- each flow plans its new classes first and the model that it updates, if any, behind them
  cases request with
  | model name plain =>
    cases plain with
    | true =>
      obtain ⟨q, w, known, made, rfl⟩ := planModel_plain_eq_ok.1 planned
      exact ⟨[], [w], rfl, .nil, .cons (isFileOf_newClass known made) .nil⟩
    | false =>
      obtain ⟨q, m, c, once, b, twice, plan, rfl⟩ := exists_modelPlan planned
      obtain ⟨_, _, _, _, collected, -, -, first, -⟩ := composedCollection_eq_ok.1 plan.first
      obtain ⟨_, _, _, _, built, -, -, -, second, -⟩ := composedQueryBuilder_eq_ok.1 plan.second
      exact ⟨[c, b], _, rfl,
        .cons (isFileOf_newClass collected first) (.cons (isFileOf_newClass built second) .nil),
        .cons ⟨q, plan.known, plan.path⟩ .nil⟩
  | collection name model =>
    rcases planCollection_eq_ok.1 planned with
      ⟨absent, q, w, known, made, rfl⟩ | ⟨m, fresh, update, present, composed, rfl⟩
    · refine ⟨[w], [], rfl, .cons (isFileOf_newClass known made) .nil, ?_⟩
      rw [Request.model?, absent]
      exact .nil
    · obtain ⟨q, path, t, later, known, source, -, made, rfl⟩ := composedCollection_eq_ok.1 composed
      refine ⟨[fresh], _, rfl, .cons (isFileOf_newClass known made) .nil, ?_⟩
      rw [Request.model?, present]
      exact .cons (isFileOf_modelSource source) .nil
  | queryBuilder name model collection =>
    rcases planQueryBuilder_eq_ok.1 planned with
      ⟨absent, q, w, known, -, made, rfl⟩ | ⟨m, fresh, update, present, composed, rfl⟩
    · refine ⟨[w], [], rfl, .cons (isFileOf_newClass known made) .nil, ?_⟩
      rw [Request.model?, absent]
      exact .nil
    · obtain ⟨q, path, t, later, known, -, source, -, made, rfl⟩ :=
        composedQueryBuilder_eq_ok.1 composed
      refine ⟨[fresh], _, rfl, .cons (isFileOf_newClass known made) .nil, ?_⟩
      rw [Request.model?, present]
      exact .cons (isFileOf_modelSource source) .nil

theorem eq_singleton_of_forall₂ {α β : Type} {R : α → β → Prop} {a : α} {r : List β}
    (h : List.Forall₂ R [a] r) : ∃ b, r = [b] := by
  obtain ⟨b, others, -, rest, rfl⟩ := List.forall₂_cons_left_iff.1 h
  rw [List.forall₂_nil_left_iff.1 rest]
  exact ⟨b, rfl⟩

theorem exists_of_forall₂ {α β : Type} {R : α → β → Prop} {l : List α} {r : List β} {b : β}
    (h : List.Forall₂ R l r) (mem : b ∈ r) : ∃ a ∈ l, R a b := by
  induction h with
  | nil => simp at mem
  | cons related _ ih =>
    rcases List.mem_cons.1 mem with rfl | mem
    · exact ⟨_, by simp, related⟩
    · obtain ⟨a, listed, related⟩ := ih mem
      exact ⟨a, List.mem_cons_of_mem _ listed, related⟩

theorem Files.isFileOf (h : s.Files request parts models) {w : Write} (mem : w ∈ parts ++ models) :
    ∃ named, s.IsFileOf named w := by
  rcases List.mem_append.1 mem with part | update
  · obtain ⟨named, -, file⟩ := exists_of_forall₂ h.parts part
    exact ⟨named, file⟩
  · obtain ⟨model, -, file⟩ := exists_of_forall₂ h.model update
    exact ⟨_, file⟩

theorem Files.exists_update (h : s.Files request parts models)
    (given : request.model? = some model) : ∃ update, models = [update] := by
  have files := h.model
  rw [given, Option.toList_some] at files
  exact eq_singleton_of_forall₂ files

end Site
end Scaffold
