import Scaffold.Proofs.Composition.Injection
import Scaffold.Proofs.Composition.Part
import Scaffold.Proofs.Composition.Project

/-! Compositions made one after the other on a model. Each writes its marker, and no later edit
tears a marker apart; so a model is composed at most once of each kind, whatever is tried. -/

namespace Scaffold
open Text Naming Source Recipe

/-- One attempt to compose a part of the given name into a model. -/
structure Composing where
  part : Part
  name : Text
  model : Option Text
  deriving DecidableEq, Repr

namespace Project

variable {p : Project} {c : Composing} {t later : Text}

def compose (p : Project) (c : Composing) (t : Text) : Noted Text :=
  match c.part with
  | .collection => p.composeCollection c.name c.model t
  | .queryBuilder => p.composeQueryBuilder c.name c.model t

/-- The text that the next attempt is made on. -/
def afterwards (p : Project) (t : Text) (c : Composing) : Text :=
  match (p.compose c t).outcome with
  | .ok later => later
  | .error _ => t

/-- The attempts with their outcomes, each made on what the ones before it have left. -/
def attempts (p : Project) : List Composing → Text → List (Composing × Except Fault Text)
  | [], _ => []
  | c :: rest, t => (c, (p.compose c t).outcome) :: p.attempts rest (p.afterwards t c)

/-- The attempts at a part that go through. -/
def successes (p : Project) (part : Part) (calls : List Composing) (t : Text) :
    List (Composing × Except Fault Text) :=
  (p.attempts calls t).filter fun attempt => attempt.1.part = part && attempt.2.isOk

/-- The answer to an attempt at a part that is there already: its name is still looked at first. -/
def refusal (p : Project) (c : Composing) : Except Fault Text := do
  let _ ← p.qualifier.qualify c.part.kind c.name
  .error (.alreadyComposed c.part.marker (subjectOf c.model))

/-- No stub of its own for a composition. -/
def BuiltinParts (p : Project) : Prop :=
  ∀ part : Part, p.stubFile part.stubName = none

theorem compositionBlock_eq (h : p.BuiltinParts) (part : Part) (name : Text) :
    (p.compositionBlock part.stubName name).outcome =
      .ok ('\n' :: trim isLineEnd (Stub.fillClass name part.stub)) := by
  have builtin : p.stub part.stubName = pure part.stub := by
    rw [stub, h part, part.builtin?_stubName]
  rw [compositionBlock, builtin]
  rfl

theorem compose_outcome (h : p.BuiltinParts) (c : Composing) (t : Text) :
    (p.compose c t).outcome = (do
      let name ← p.qualifier.qualify c.part.kind c.name
      let composed ← inject [name] ('\n' :: trim isLineEnd (Stub.fillClass name c.part.stub))
        (some c.part.marker) (subjectOf c.model) t
      c.part.finish name composed) := by
  have block := compositionBlock_eq h c.part
  obtain ⟨part, name, model⟩ := c
  cases part with
  | collection =>
    simp only [Part.stubName] at block
    simp only [compose, composeCollection, Noted.outcome_bind, Noted.outcome_lift,
      Noted.outcome_note, block, Part.finish, bind_pure]
    rfl
  | queryBuilder =>
    simp only [Part.stubName] at block
    simp only [compose, composeQueryBuilder, Noted.outcome_bind, Noted.outcome_lift,
      Noted.outcome_note, block]
    rfl

theorem compose_of_marked (h : p.BuiltinParts) (marked : c.part.marker <:+: t) :
    (p.compose c t).outcome = p.refusal c := by
  rw [compose_outcome h, refusal]
  congr 1
  funext name
  rw [inject_of_composed c.part.lasting_marker.filled marked]
  rfl

theorem exists_of_compose (h : p.BuiltinParts) (ok : (p.compose c t).outcome = .ok later) :
    ∃ name added composed, addImports [name] t = .ok added ∧
      appendToBody ('\n' :: trim isLineEnd (Stub.fillClass name c.part.stub)) added =
        .ok composed ∧
      c.part.finish name composed = .ok later := by
  rw [compose_outcome h] at ok
  simp only [bind_eq_ok] at ok
  obtain ⟨name, -, composed, injected, finished⟩ := ok
  obtain ⟨added, imported, appended⟩ := exists_of_inject injected
  exact ⟨name, added, composed, imported, appended, finished⟩

theorem infix_of_finish {word composed : Text} (lasting : Lasting word) {part : Part}
    {name : Text} (inside : word <:+: composed) (ok : part.finish name composed = .ok later) :
    word <:+: later := by
  cases part with
  | collection =>
    obtain rfl : composed = later := Except.ok.inj ok
    exact inside
  | queryBuilder => exact lasting.annotate inside ok

theorem infix_of_compose (h : p.BuiltinParts) (ok : (p.compose c t).outcome = .ok later) :
    c.part.marker <:+: later ∧ ∀ word, Lasting word → word <:+: t → word <:+: later := by
  obtain ⟨name, added, composed, imported, appended, finished⟩ := exists_of_compose h ok
  constructor
  · have lasting := c.part.lasting_marker
    have solid : ∀ d ∈ c.part.marker, isLineEnd d = false := fun d mem => by
      simpa [isLineEnd, IsBreak, and_comm] using lasting.whole d mem
    have block := infix_trim lasting.filled (fun d mem => solid d (List.mem_of_mem_head? mem))
      (fun d mem => solid d (List.mem_of_mem_getLast? mem))
      (c.part.marker_infix_fillClass name)
    obtain ⟨front, back, -, -, rfl⟩ := appendToBody_eq_ok appended
    refine infix_of_finish lasting ?_ finished
    simp only [List.append_assoc]
    refine List.infix_append_of_infix_right (block.trans ?_)
    exact (List.suffix_cons _ _).isInfix.trans List.infix_append_left
  · intro word lasting inside
    have first := lasting.addImports inside imported
    exact infix_of_finish lasting (lasting.appendToBody first appended) finished

theorem marked_afterwards (h : p.BuiltinParts) {part : Part} (marked : part.marker <:+: t)
    (c : Composing) : part.marker <:+: p.afterwards t c := by
  unfold afterwards
  split
  · next later ok => exact (infix_of_compose h ok).2 _ part.lasting_marker marked
  · exact marked

theorem refused_of_marked (h : p.BuiltinParts) {part : Part} (calls : List Composing)
    (marked : part.marker <:+: t) :
    ∀ attempt ∈ p.attempts calls t, attempt.1.part = part → attempt.2 = p.refusal attempt.1 := by
  induction calls generalizing t with
  | nil => simp [attempts]
  | cons c rest ih =>
    intro attempt mem same
    rw [attempts] at mem
    rcases List.mem_cons.1 mem with rfl | later
    · subst same
      exact compose_of_marked h marked
    · exact ih (marked_afterwards h marked c) attempt later same

theorem pairwise_refused (h : p.BuiltinParts) (calls : List Composing) (t : Text) :
    (p.attempts calls t).Pairwise fun first second =>
      first.2.isOk → second.1.part = first.1.part → second.2 = p.refusal second.1 := by
  induction calls generalizing t with
  | nil => exact .nil
  | cons c rest ih =>
    rw [attempts]
    refine .cons (fun second mem succeeded same => ?_) (ih _)
    cases outcome : (p.compose c t).outcome with
    | error fault => simp [outcome, Except.isOk, Except.toBool] at succeeded
    | ok later =>
      have left : p.afterwards t c = later := by rw [afterwards, outcome]
      rw [left] at mem
      exact refused_of_marked h rest (infix_of_compose h outcome).1 second mem same

theorem refusal_isOk (p : Project) (c : Composing) : (p.refusal c).isOk = false := by
  unfold refusal
  cases p.qualifier.qualify c.part.kind c.name <;> rfl

theorem length_successes_le_one (h : p.BuiltinParts) (part : Part) (calls : List Composing)
    (t : Text) : (p.successes part calls t).length ≤ 1 := by
  have among : (p.successes part calls t).Pairwise _ := (pairwise_refused h calls t).filter _
  have succeeded : ∀ a ∈ p.successes part calls t, a.1.part = part ∧ a.2.isOk := fun a mem => by
    simpa using (List.mem_filter.1 mem).2
  generalize p.successes part calls t = kept at among succeeded
  match kept with
  | [] => simp
  | [_] => simp
  | first :: second :: rest =>
    obtain ⟨here, ok⟩ := succeeded first (by simp)
    obtain ⟨there, again⟩ := succeeded second (by simp)
    have refused := (List.pairwise_cons.1 among).1 second (by simp) ok (there.trans here.symm)
    rw [refused, refusal_isOk] at again
    simp at again

/-- Of each part at most one attempt succeeds, however many are made and with whatever names;
every later one whose name qualifies is refused for the marker that the first has left. -/
theorem composed_at_most_once (h : p.BuiltinParts) (calls : List Composing) (t : Text) :
    (∀ part, (p.successes part calls t).length ≤ 1) ∧
    (p.attempts calls t).Pairwise fun first second =>
      first.2.isOk → second.1.part = first.1.part → second.2 = p.refusal second.1 :=
  ⟨fun part => length_successes_le_one h part calls t, pairwise_refused h calls t⟩

theorem composed_at_most_once_documented :
    let p : Project := ⟨.standard ⟨.root, []⟩, fun _ => false, fun _ => none⟩
    let t := "<?php namespace A;\r\n/** m */ class M \x7b \x7d".toList
    let calls : List Composing :=
      [⟨.collection, "C".toList, none⟩, ⟨.queryBuilder, "B".toList, some "M".toList⟩,
        ⟨.collection, " \x7d".toList, some "M".toList⟩, ⟨.queryBuilder, [], none⟩]
    (∀ part, (p.successes part calls t).length ≤ 1) ∧
    (p.attempts calls t).Pairwise fun first second =>
      first.2.isOk → second.1.part = first.1.part → second.2 = p.refusal second.1 :=
  Project.composed_at_most_once (fun _ => rfl) _ _

end Project
end Scaffold
