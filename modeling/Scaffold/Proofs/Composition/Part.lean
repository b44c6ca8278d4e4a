import Scaffold.Composition.Project
import Scaffold.Proofs.Naming.Plain
import Scaffold.Proofs.Source.Inert
import Scaffold.Proofs.Source.Lasting
import Scaffold.Proofs.Stub.Fill

/-! The two parts that can be composed into a model, and the method that each of them adds. The
methods differ in their comment, signature and argument alone; each holds its own marker once and
the other's nowhere, whatever class it is filled in for. -/

namespace Scaffold
open Text Naming Source DocBlock Recipe

inductive Part where
  | collection
  | queryBuilder
  deriving DecidableEq, Repr

namespace Part

variable {part other : Part} {base : Text}

def kind : Part → Kind
  | collection => .collection
  | queryBuilder => .queryBuilder

def marker : Part → Text
  | collection => collectionMarker
  | queryBuilder => queryBuilderMarker

def stubName : Part → Text
  | collection => Stub.collectionCompositionName
  | queryBuilder => Stub.queryBuilderCompositionName

/-- The method that the part adds to a model, as it stands in the built-in stub. -/
def stub : Part → Text
  | collection => Stub.collectionComposition
  | queryBuilder => Stub.queryBuilderComposition

/-- What is done once the method is in. -/
def finish : Part → (name : Text) → Text → Except Fault Text
  | collection, _ => pure
  | queryBuilder, name => annotate (modelEntries name)

theorem builtin?_stubName (part : Part) : Stub.builtin? part.stubName = some part.stub := by
  cases part <;> rfl

theorem lasting_marker (part : Part) : Lasting part.marker := by
  cases part <;> decide

/-- What the comment says of the method. -/
def remark : Part → List Text
  | collection =>
    ["     * Create a new Eloquent Collection instance.".toList,
     "     *".toList,
     "     * @param  array<int, \\Illuminate\\Database\\Eloquent\\Model>  $models".toList]
  | queryBuilder =>
    ["     * Create a new Eloquent query builder for the model.".toList,
     "     *".toList,
     "     * @param  \\Illuminate\\Database\\Query\\Builder  $query".toList]

def comment (part : Part) : List Text :=
  "    /**".toList :: part.remark ++ ["     */".toList]

/-- The word that tells the markers apart. -/
def methodName : Part → Text
  | collection => "newCollection".toList
  | queryBuilder => "newEloquentBuilder".toList

def parameter : Part → Text
  | collection => "array $models = []".toList
  | queryBuilder => "$query".toList

def argument : Part → Text
  | collection => "$models".toList
  | queryBuilder => "$query".toList

/-- The row of the method up to the type that it returns. -/
def signature (part : Part) : Text :=
  "    public function ".toList ++ (part.methodName ++ '(' :: (part.parameter ++ "): ".toList))

def result (part : Part) : Text :=
  '(' :: (part.argument ++ ");".toList)

/-- The rows of the method for a class of the given base name. -/
def method (part : Part) (base : Text) : List Text :=
  part.comment ++ [part.signature ++ base, "    \x7b".toList,
    "        return new ".toList ++ (base ++ part.result), "    \x7d".toList]

theorem stub_eq (part : Part) : part.stub = ofRows (part.method Stub.Slot.className.mark) := by
  cases part <;> decide +kernel

theorem marker_eq (part : Part) :
    part.marker = "function".toList ++ ' ' :: part.methodName := by
  cases part <;> rfl

theorem marker_infix_signature (part : Part) : part.marker <:+: part.signature := by
  rw [← occurs_iff]
  cases part <;> decide

theorem fillClass_eq (part : Part) (name : Text) :
    Stub.fillClass name part.stub =
      ofRows ((part.method Stub.Slot.className.mark).map
        (Stub.Slot.className.fill (lastSegment name))) := by
  rw [stub_eq, Stub.fillClass, Stub.Slot.fill_ofRows]

theorem undummied_signature (part : Part) :
    ¬ Stub.Slot.className.dummy <:+: part.signature ++ Stub.Slot.className.mark := by
  cases part <;> decide +kernel

theorem unbraced_signature (part : Part) : '\x7b' ∉ part.signature := by
  cases part <;> decide

theorem marker_infix_fillClass (part : Part) (name : Text) :
    part.marker <:+: Stub.fillClass name part.stub := by
  have row : part.signature ++ Stub.Slot.className.mark ∈ part.method Stub.Slot.className.mark := by
    simp [method]
  have kept := Stub.Slot.fill_append part.unbraced_signature .className part.undummied_signature
    (lastSegment name)
  rw [fillClass_eq]
  refine List.IsInfix.trans ?_ (infix_ofRows (List.mem_map_of_mem row))
  rw [kept]
  exact part.marker_infix_signature.trans List.infix_append_left

theorem fillClass_stub (part : Part) {name : Text} (unbraced : '\x7b' ∉ lastSegment name) :
    Stub.fillClass name part.stub = ofRows (part.method (lastSegment name)) := by
  have absent : ∀ row ∈ part.comment ++ ["    \x7b".toList, "    \x7d".toList],
      Stub.Slot.className.Absent row := by
    cases part <;> decide +kernel
  have kept : ∀ row ∈ part.comment ++ ["    \x7b".toList, "    \x7d".toList],
      Stub.Slot.className.fill (lastSegment name) row = row :=
    fun row mem => Stub.Slot.fill_of_absent (absent row mem) _
  have comment : part.comment.map (Stub.Slot.className.fill (lastSegment name)) = part.comment := by
    rw [List.map_congr_left fun row mem => kept row (List.mem_append_left _ mem), List.map_id']
  have signature : Stub.Slot.className.fill (lastSegment name)
      (part.signature ++ Stub.Slot.className.mark) = part.signature ++ lastSegment name := by
    have filled : Stub.Slot.className.fill (lastSegment name)
        (part.signature ++ (Stub.Slot.className.mark ++ [])) =
          part.signature ++ (lastSegment name ++ []) :=
      Stub.Slot.fill_mark (by simp [part.unbraced_signature, unbraced])
        (by simpa using part.undummied_signature)
    simpa using filled
  have returned : Stub.Slot.className.fill (lastSegment name)
      ("        return new ".toList ++ (Stub.Slot.className.mark ++ part.result)) =
        "        return new ".toList ++ (lastSegment name ++ part.result) := by
    refine Stub.Slot.fill_mark ?_ ?_
    · have result : '\x7b' ∉ part.result := by cases part <;> decide
      simp [unbraced, result]
    · cases part <;> decide +kernel
  rw [fillClass_eq, method, List.map_append, comment, List.map_cons, List.map_cons, List.map_cons,
    List.map_singleton, signature, returned, kept _ (by simp), kept _ (by simp), method]

theorem trim_method (part : Part) (base : Text) :
    trim Project.isLineEnd (ofRows (part.method base)) = joinLines (part.method base) := by
  have ended : joinLines (part.method base) ++ ['\n'] = ofRows (part.method base) := by
    have filled : part.method base ≠ [] := by simp [method, comment]
    simpa using joinLines_append_lf filled []
  have first : (joinLines (part.method base)).head? = some ' ' := by
    rw [method, comment, List.cons_append, List.cons_append, joinLines_cons _ (by simp)]
    rfl
  have last : (joinLines (part.method base)).getLast? = some '\x7d' := by
    have closed : part.method base = (part.comment ++ [part.signature ++ base, "    \x7b".toList,
        "        return new ".toList ++ (base ++ part.result)]) ++ ["    \x7d".toList] := by
      simp [method]
    rw [closed, joinLines_append, List.getLast?_append]
    rfl
  have opens : ∀ c ∈ (joinLines (part.method base) ++ ['\n']).head?,
      Project.isLineEnd c = false := by
    simp [List.head?_append, first, Project.isLineEnd]
  have closes : ∀ c ∈ (joinLines (part.method base)).getLast?, Project.isLineEnd c = false := by
    simp [last, Project.isLineEnd]
  rw [← ended, trim, trimStart_eq_self opens, trimEnd_concat, if_pos (by decide),
    trimEnd_eq_self_iff.2 closes]

theorem not_marked {front back : Text} (bare : ¬ part.marker <:+: front) (single : ' ' ∉ back)
    (apart : ¬ ("function".toList <:+ front ∧ part.methodName <+: back)) :
    ¬ part.marker <:+: front ++ ' ' :: back := by
  have word : ' ' ∉ part.methodName := by cases part <;> decide
  rw [marker_eq] at bare ⊢
  intro found
  rcases infix_around word single found with across | before
  · exact apart across
  · exact bare before

theorem marker_sound (part : Part) : part.marker ≠ [] ∧ '\n' ∉ part.marker ∧ '(' ∉ part.marker := by
  cases part <;> decide

theorem occurrences_signature (part other : Part) (clean : Spelled base) :
    occurrences part.marker (other.signature ++ base) = if part = other then 1 else 0 := by
  obtain ⟨filled, -, open_⟩ := part.marker_sound
  have row : other.signature ++ base = ("    public function ".toList ++ other.methodName) ++
      '(' :: ((other.parameter ++ "):".toList) ++ ' ' :: base) := by
    unfold signature
    simp
  have named : occurrences part.marker ("    public function ".toList ++ other.methodName) =
      if part = other then 1 else 0 := by
    cases part <;> cases other <;> decide
  have typed : ¬ part.marker <:+: (other.parameter ++ "):".toList) ++ ' ' :: base := by
    have front : ¬ part.marker <:+: other.parameter ++ "):".toList ∧
        ¬ "function".toList <:+ other.parameter ++ "):".toList := by
      cases part <;> cases other <;> decide
    exact not_marked front.1 (clean.not_mem (by decide)) fun both => front.2 both.1
  rw [row, occurrences_append_cons filled open_, named, occurrences_eq_zero_iff.2 typed,
    Nat.add_zero]

theorem occurrences_return (part other : Part) (clean : Spelled base) :
    occurrences part.marker ("        return new ".toList ++ (base ++ other.result)) = 0 := by
  obtain ⟨filled, -, open_⟩ := part.marker_sound
  have row : "        return new ".toList ++ (base ++ other.result) =
      ("        return new".toList ++ ' ' :: base) ++ '(' :: (other.argument ++ ");".toList) := by
    unfold result
    simp
  have front : ¬ part.marker <:+: "        return new".toList := by
    cases part <;> decide
  have typed : ¬ part.marker <:+: "        return new".toList ++ ' ' :: base :=
    not_marked front (clean.not_mem (by decide)) fun both => absurd both.1 (by decide)
  have given : ¬ part.marker <:+: other.argument ++ ");".toList := by
    cases part <;> cases other <;> decide
  rw [row, occurrences_append_cons filled open_, occurrences_eq_zero_iff.2 typed,
    occurrences_eq_zero_iff.2 given]

theorem occurrences_method (part other : Part) (clean : Spelled base) :
    occurrences part.marker (ofRows (other.method base)) = if part = other then 1 else 0 := by
  obtain ⟨filled, whole, -⟩ := part.marker_sound
  have comment : (other.comment.map (occurrences part.marker)).sum = 0 := by
    cases part <;> cases other <;> decide +kernel
  have braces : occurrences part.marker "    \x7b".toList = 0 ∧
      occurrences part.marker "    \x7d".toList = 0 := by
    cases part <;> decide
  rw [occurrences_ofRows filled whole, method, List.map_append, List.sum_append, comment]
  simp only [List.map_cons, List.map_nil, List.sum_cons, List.sum_nil,
    occurrences_signature part other clean, occurrences_return part other clean, braces]
  omega

theorem inert_method (part : Part) (clean : Spelled base) : Inert (ofRows (part.method base)) := by
  have shape : ofRows (part.method base) = "    ".toList ++
      ((opener ++ ('\n' :: ofRows part.remark ++ "     ".toList) ++ closer ++
        ('\n' :: ("    public function ".toList ++ part.methodName) ++ ['('])) ++
        (part.parameter ++ ("): ".toList ++ (base ++ '\n' :: ofRows ["    \x7b".toList,
          "        return new ".toList ++ (base ++ part.result), "    \x7d".toList])))) := by
    unfold method comment signature
    simp [opener, closer]
  have comment : Inert (opener ++ ('\n' :: ofRows part.remark ++ "     ".toList) ++ closer ++
      ('\n' :: ("    public function ".toList ++ part.methodName) ++ ['('])) := by
    refine inert_comment ?_ ?_ rfl ?_ (by decide) (by decide) (by decide)
    · cases part <;> decide +kernel
    · cases part <;> decide
    · show declares ('\n' :: ' ' :: ' ' :: ' ' :: ' ' :: 'p' ::
        ("ublic function ".toList ++ part.methodName)) = false
      iterate 5 rw [declares_cons_blank (by decide)]
      exact declares_cons_of_ne (by decide) (by decide) _
  have free : '/' ∉ base := clean.not_mem (by decide)
  have rest : '/' ∉ part.parameter ++ ("): ".toList ++ (base ++ '\n' :: ofRows ["    \x7b".toList,
      "        return new ".toList ++ (base ++ part.result), "    \x7d".toList])) := by
    have parameter : '/' ∉ part.parameter := by cases part <;> decide
    have result : '/' ∉ part.result := by cases part <;> decide
    simp [free, parameter, result]
  rw [shape]
  exact (inert_of_not_mem (by decide)).append (comment.append (inert_of_not_mem rest))

end Part
end Scaffold
