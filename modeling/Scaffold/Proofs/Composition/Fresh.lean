import Scaffold.Proofs.Composition.History
import Scaffold.Proofs.Naming.Location
import Scaffold.Proofs.Source.Sheet

/-! Fresh classes from the built-in stubs. Each of the three class stubs is a sheet with the marks
of two slots for names, and filled in it is the same sheet with the names; composing a part into
a sheet gives a sheet again. -/

namespace Scaffold
open Text Naming Source DocBlock Recipe

namespace Kind

variable {name space base root : Text}

/-- The class that one of the kind extends. -/
def parent : Kind → Text
  | model => "Model".toList
  | collection => "Collection".toList
  | queryBuilder => "Builder".toList

/-- What a class of the kind imports to begin with. -/
def imported : Kind → List Text
  | model =>
    ["Illuminate\\Database\\Eloquent\\Factories\\HasFactory".toList,
     "Illuminate\\Database\\Eloquent\\Model".toList]
  | collection => ["Illuminate\\Database\\Eloquent\\Collection".toList]
  | queryBuilder => ["Illuminate\\Database\\Eloquent\\Builder".toList]

def body : Kind → List Text
  | model => ["    use HasFactory;".toList]
  | collection => ["    //".toList]
  | queryBuilder => ["    //".toList]

def sheet (kind : Kind) (space base : Text) : Sheet where
  space := space
  groups := [kind.imported]
  doc := none
  name := base
  parent := kind.parent
  body := kind.body

/-- The class of the given qualified name. -/
def sheetOf (kind : Kind) (name : Text) : Sheet :=
  kind.sheet (namespaceOf name) (lastSegment name)

theorem builtin?_label (kind : Kind) :
    Stub.builtin? kind.label =
      some (kind.sheet Stub.Slot.space.mark Stub.Slot.className.mark).text := by
  cases kind <;> decide +kernel

theorem sound_sheet (kind : Kind) (clean : Spelled space) (clean' : Spelled base) :
    (kind.sheet space base).Sound := by
  refine ⟨clean, fun names mem => ?_, clean', ?_⟩
  · rw [List.mem_singleton.1 mem]
    cases kind <;> decide +kernel
  · show Spelled kind.parent
    cases kind <;> decide

theorem rows_sheet (kind : Kind) (space base : Text) :
    (kind.sheet space base).rows = ["<?php".toList, []] ++
      ("namespace ".toList ++ (space ++ [';'])) :: ((Sheet.group kind.imported ++ [[]]) ++
        ("class ".toList ++ (base ++ (" extends ".toList ++ kind.parent))) ::
          (['\x7b'] :: kind.body ++ [['\x7d']])) := by
  unfold Sheet.rows Sheet.head Sheet.inner Sheet.spaceRow Sheet.declaration
  simp [sheet, Sheet.docRows]

theorem map_of_kept {f : Text → Text} {front middle back : List Text}
    (kept : ∀ row ∈ front ++ (middle ++ back), f row = row) (one other : Text) :
    (front ++ one :: (middle ++ other :: back)).map f =
      front ++ f one :: (middle ++ f other :: back) := by
  have same : ∀ rows ⊆ front ++ (middle ++ back), rows.map f = rows := fun rows part => by
    rw [List.map_congr_left fun row mem => kept row (part mem), List.map_id']
  rw [List.map_append, List.map_cons, List.map_append, List.map_cons, same front (by simp),
    same middle (by simp), same back (by simp)]

theorem fillAll_marks (kind : Kind) (name root : Text) :
    Stub.fillAll name root (kind.sheet Stub.Slot.space.mark Stub.Slot.className.mark).text =
      (kind.sheet (Stub.fillAll name root Stub.Slot.space.mark)
        (Stub.fillAll name root Stub.Slot.className.mark)).text := by
  have kept : ∀ row ∈ ["<?php".toList, []] ++ ((Sheet.group kind.imported ++ [[]]) ++
      (['\x7b'] :: kind.body ++ [['\x7d']])), Stub.Unslotted row := by
    cases kind <;> decide +kernel
  have space : Frames Stub.spellings "namespace ".toList [';'] := by decide +kernel
  have declaration : Frames Stub.spellings "class ".toList
      (" extends ".toList ++ kind.parent) := by
    cases kind <;> decide +kernel
  rw [Sheet.text, Stub.fillAll_ofRows, rows_sheet, Sheet.text, rows_sheet,
    map_of_kept fun row mem => Stub.fillAll_of_unslotted (kept row mem),
    Stub.fillAll_framed space, Stub.fillAll_framed declaration]

theorem fillAll_sheet (kind : Kind) (clean : Spelled (namespaceOf name))
    (clean' : Spelled (lastSegment name)) (undummied : Stub.Undummied (namespaceOf name)) :
    Stub.fillAll name root (kind.sheet Stub.Slot.space.mark Stub.Slot.className.mark).text =
      (kind.sheetOf name).text := by
  have braced {t : Text} (clean : Spelled t) (word : Text) : ¬ Stub.braced word <:+: t :=
    fun found => clean.not_mem (c := '\x7b') (by decide) (found.subset (by simp [Stub.braced]))
  rw [fillAll_marks, Stub.fillAll_class_mark (braced clean' _), Stub.fillAll_space_mark, sheetOf]
  have brace := braced clean
  simp only [Stub.spellings, Stub.Slot.spellings, List.cons_append, List.nil_append, List.drop,
    List.forall_mem_cons]
  exact ⟨brace _, undummied .rootSpace, brace _, brace _, undummied .className, brace _, brace _,
    by simp⟩

end Kind

namespace Part

variable {part : Part} {name base : Text} {s : Sheet}

theorem not_marked_row {front tail : Text} (clean : Spelled name) (free : ' ' ∉ tail)
    (bare : ¬ part.marker <:+: front ∧ ¬ "function".toList <:+ front) :
    ¬ part.marker <:+: front ++ ' ' :: (name ++ tail) := by
  have single : ' ' ∉ name ++ tail := by simp [clean.not_mem (c := ' ') (by decide), free]
  exact not_marked bare.1 single fun both => bare.2 both.1

theorem not_marked_statement (part : Part) (clean : Spelled name) :
    ¬ part.marker <:+: Import.statement name := by
  have split : Import.statement name = "use".toList ++ ' ' :: (name ++ [';']) := by
    unfold Import.statement
    simp [Import.opener]
  rw [split]
  exact not_marked_row clean (by decide) (by cases part <;> decide)

theorem not_marked_spaceRow (part : Part) (clean : Spelled name) :
    ¬ part.marker <:+: "namespace ".toList ++ (name ++ [';']) := by
  have split : "namespace ".toList ++ (name ++ [';']) =
      "namespace".toList ++ ' ' :: (name ++ [';']) := rfl
  rw [split]
  exact not_marked_row clean (by decide) (by cases part <;> decide)

theorem not_marked_declaration (part : Part) (clean : Spelled base) :
    ¬ part.marker <:+: "class ".toList ++ (base ++ " extends Model".toList) := by
  have split : "class ".toList ++ (base ++ " extends Model".toList) =
      (("class".toList ++ ' ' :: (base ++ [])) ++ ' ' :: "extends".toList) ++
        ' ' :: "Model".toList := by
    simp
  have named : ¬ part.marker <:+: "class".toList ++ ' ' :: (base ++ []) :=
    not_marked_row clean (by decide) (by cases part <;> decide)
  have apart : ¬ part.methodName <+: "extends".toList ∧ ¬ part.methodName <+: "Model".toList := by
    cases part <;> decide
  rw [split]
  exact not_marked (not_marked named (by decide) fun both => apart.1 both.2) (by decide)
    fun both => apart.2 both.2

theorem not_marked_queryEntry (part : Part) (clean : Spelled (basename name)) :
    ¬ part.marker <:+: entryLine (queryEntry name) := by
  have split : entryLine (queryEntry name) =
      (" * @method static".toList ++ ' ' :: (basename name ++ [])) ++ ' ' :: "query()".toList := by
    unfold entryLine queryEntry
    simp
  have named : ¬ part.marker <:+: " * @method static".toList ++ ' ' :: (basename name ++ []) :=
    not_marked_row clean (by decide) (by cases part <;> decide)
  have apart : ¬ part.methodName <+: "query()".toList := by
    cases part <;> decide
  rw [split]
  exact not_marked named (by decide) fun both => apart both.2

theorem occurrences_sheet (part : Part) {space : Text} (clean : Spelled space)
    (clean' : Spelled base) : occurrences part.marker (Kind.model.sheet space base).text = 0 := by
  have fixed : ∀ row ∈ ["<?php".toList, []] ++ ((Sheet.group Kind.model.imported ++ [[]]) ++
      (['\x7b'] :: Kind.model.body ++ [['\x7d']])), ¬ part.marker <:+: row := by
    cases part <;> decide +kernel
  have declaration : " extends ".toList ++ Kind.model.parent = " extends Model".toList := rfl
  obtain ⟨filled, whole, -⟩ := part.marker_sound
  rw [Sheet.occurrences_text filled whole, Kind.rows_sheet, declaration]
  refine sum_occurrences_eq_zero ?_
  simp only [List.forall_mem_append, List.forall_mem_cons] at fixed ⊢
  exact ⟨fixed.1, part.not_marked_spaceRow clean, fixed.2.1, part.not_marked_declaration clean',
    fixed.2.2⟩

end Part

namespace Project

variable {p : Project} {name : Text}

/-- No stub of its own under any of the built-in names. -/
def Builtin (p : Project) : Prop :=
  ∀ stub ∈ Stub.builtin.map Prod.fst, p.stubFile stub = none

theorem Builtin.parts (h : p.Builtin) : p.BuiltinParts := fun part =>
  h _ (by cases part <;> decide +kernel)

theorem Builtin.rendered (h : p.Builtin) (kind : Kind) (clean : Spelled (namespaceOf name))
    (clean' : Spelled (lastSegment name)) (undummied : Stub.Undummied (namespaceOf name)) :
    (p.rendered kind.label name).outcome = .ok (kind.sheetOf name).text := by
  have bare := h kind.label (by cases kind <;> decide +kernel)
  have builtin : p.stub kind.label =
      pure (kind.sheet Stub.Slot.space.mark Stub.Slot.className.mark).text := by
    rw [stub, bare, kind.builtin?_label]
  rw [Project.rendered, builtin, ← kind.fillAll_sheet clean clean' undummied]
  rfl

end Project

end Scaffold
