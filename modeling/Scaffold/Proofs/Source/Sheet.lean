import Scaffold.Proofs.Naming.Plain
import Scaffold.Proofs.Source.Annotate
import Scaffold.Proofs.Source.Body
import Scaffold.Proofs.Source.Import
import Scaffold.Proofs.Source.Inert
import Scaffold.Proofs.Text.Rows

/-! A class file in parts: its namespace, groups of imports, the doc block, the declaration and
the rows of the body. On the text of such a file each edit of a source comes to a change of one
part, and what is read from the text is what the parts hold. -/

namespace Scaffold.Source
open Text Naming DocBlock

structure Sheet where
  space : Text
  groups : List (List Text)
  doc : Option (List Text)
  name : Text
  parent : Text
  body : List Text

namespace Sheet

variable {s : Sheet} {names entries method : List Text} {name word : Text}

def spaceRow (s : Sheet) : Text :=
  "namespace ".toList ++ (s.space ++ [';'])

def group (names : List Text) : List Text :=
  [] :: names.map Import.statement

/-- The rows above the doc block. -/
def head (s : Sheet) : List Text :=
  "<?php".toList :: [] :: s.spaceRow :: (s.groups.flatMap group ++ [[]])

def docRows : Option (List Text) → List Text
  | none => []
  | some entries => opener :: entries.map entryLine ++ [' ' :: closer]

def declaration (s : Sheet) : Text :=
  "class ".toList ++ (s.name ++ (" extends ".toList ++ s.parent))

/-- The rows below the declaration. -/
def inner (s : Sheet) : List Text :=
  ['\x7b'] :: s.body ++ [['\x7d']]

def rows (s : Sheet) : List Text :=
  s.head ++ (docRows s.doc ++ s.declaration :: s.inner)

def text (s : Sheet) : Text :=
  ofRows s.rows

/-- A group more, if there is a name in it. -/
def importing (s : Sheet) (names : List Text) : Sheet :=
  { s with groups := (if names = [] then [] else [names]) ++ s.groups }

def documented (s : Sheet) (entries : List Text) : Sheet :=
  { s with doc := some entries }

/-- A method more, below a blank row. -/
def extended (s : Sheet) (method : List Text) : Sheet :=
  { s with body := s.body ++ [] :: method }

@[simp] theorem importing_spaceRow : (s.importing names).spaceRow = s.spaceRow := rfl

@[simp] theorem importing_doc : (s.importing names).doc = s.doc := rfl

@[simp] theorem importing_declaration : (s.importing names).declaration = s.declaration := rfl

@[simp] theorem importing_inner : (s.importing names).inner = s.inner := rfl

@[simp] theorem documented_head : (s.documented entries).head = s.head := rfl

@[simp] theorem documented_declaration :
    (s.documented entries).declaration = s.declaration := rfl

@[simp] theorem documented_inner : (s.documented entries).inner = s.inner := rfl

@[simp] theorem extended_head : (s.extended method).head = s.head := rfl

@[simp] theorem extended_doc : (s.extended method).doc = s.doc := rfl

@[simp] theorem extended_declaration : (s.extended method).declaration = s.declaration := rfl

@[simp] theorem extended_body : (s.extended method).body = s.body ++ [] :: method := rfl

/-- The names in a sheet are made of plain characters and separators. -/
structure Sound (s : Sheet) : Prop where
  space : Spelled s.space
  groups : ∀ names ∈ s.groups, ∀ name ∈ names, Spelled name
  name : Spelled s.name
  parent : Spelled s.parent

theorem Sound.importing (h : s.Sound) (clean : ∀ name ∈ names, Spelled name) :
    (s.importing names).Sound := by
  refine ⟨h.space, fun group mem => ?_, h.name, h.parent⟩
  rcases List.mem_append.1 mem with new | old
  · split at new
    · simp at new
    · exact List.mem_singleton.1 new ▸ clean
  · exact h.groups group old

theorem Sound.documented (h : s.Sound) (entries : List Text) : (s.documented entries).Sound :=
  ⟨h.space, h.groups, h.name, h.parent⟩

theorem Sound.extended (h : s.Sound) (method : List Text) : (s.extended method).Sound :=
  ⟨h.space, h.groups, h.name, h.parent⟩

theorem Sound.forall_mem_head (h : s.Sound) {P : Text → Prop} (mark : P "<?php".toList)
    (blank : P []) (space : P s.spaceRow)
    (statement : ∀ name, Spelled name → P (Import.statement name)) :
    ∀ row ∈ s.head, P row := by
  intro row mem
  simp only [head, List.mem_cons, List.mem_append, List.mem_flatMap, group, List.mem_map,
    List.not_mem_nil, or_false] at mem
  rcases mem with rfl | rfl | rfl | ⟨names, listed, rfl | ⟨name, given, rfl⟩⟩ | rfl
  · exact mark
  · exact blank
  · exact space
  · exact blank
  · exact statement name (h.groups names listed name given)
  · exact blank

theorem unbroken_of_spelled {t : Text} (h : Spelled t) : Unbroken t := by
  rintro c mem (rfl | rfl)
  · exact h.not_mem (by decide) mem
  · exact h.not_mem (by decide) mem

theorem Sound.unbroken_head (h : s.Sound) : ∀ row ∈ s.head, Unbroken row := by
  refine h.forall_mem_head (P := Unbroken) (by decide) (by decide) ?_ fun name clean => ?_
  · unfold spaceRow
    exact unbroken_append.2 ⟨by decide, unbroken_append.2 ⟨unbroken_of_spelled h.space, by decide⟩⟩
  · unfold Import.statement
    exact unbroken_append.2 ⟨unbroken_append.2 ⟨by decide, unbroken_of_spelled clean⟩, by decide⟩

theorem Sound.undeclared_head (h : s.Sound) : ∀ row ∈ s.head, declares row = false :=
  h.forall_mem_head (P := fun row => declares row = false)
    (declares_cons_of_ne (by decide) (by decide) _) declares_nil
    (declares_cons_of_ne (by decide) (by decide) _)
    fun _ _ => declares_cons_of_ne (by decide) (by decide) _

theorem Sound.inert_head (h : s.Sound) : Inert (ofRows s.head) := by
  refine inert_of_not_mem (not_mem_ofRows (by decide) ?_)
  refine h.forall_mem_head (P := ('/' ∉ ·)) (by decide) (by decide) ?_ fun name clean => ?_
  · have free : '/' ∉ s.space := h.space.not_mem (by decide)
    unfold spaceRow
    simp [free]
  · have free : '/' ∉ name := clean.not_mem (by decide)
    unfold Import.statement
    simp [Import.opener, free]

theorem declares_declaration (s : Sheet) : declares s.declaration := by
  have header : Header ([] ++ keyword) := .word (by simp)
  have blank : startsWithWord (' ' :: (s.name ++ (" extends ".toList ++ s.parent))) = false := rfl
  exact header.declares blank

theorem Sound.unbroken_declaration (h : s.Sound) : Unbroken s.declaration := by
  unfold declaration
  exact unbroken_append.2 ⟨by decide, unbroken_append.2 ⟨unbroken_of_spelled h.name,
    unbroken_append.2 ⟨by decide, unbroken_of_spelled h.parent⟩⟩⟩

theorem text_eq (s : Sheet) :
    s.text = ofRows s.head ++
      (ofRows (docRows s.doc) ++ (s.declaration ++ '\n' :: ofRows s.inner)) := by
  simp [text, rows]

theorem docRows_append (entries : List Text) (t : Text) :
    ofRows (docRows (some entries)) ++ t = render entries ++ '\n' :: t :=
  (joinLines_append_lf (by simp [docRows]) t).symm

theorem insertBeforeClass_text (h : s.Sound) (bare : s.doc = none) (entries : List Text) :
    insertBeforeClass [render entries] s.text = .ok (s.documented entries).text := by
  have found : (Needle.pattern .classDeclaration).find s.text =
      .ok ⟨ofRows s.head, s.declaration, '\n' :: ofRows s.inner⟩ := by
    rw [Needle.find_eq_ok_iff, text_eq, bare]
    exact first?_ofRows h.unbroken_head h.undeclared_head h.unbroken_declaration
      (declares_declaration s) _
  have later : (s.documented entries).text = ofRows s.head ++
      (ofRows (docRows (some entries)) ++ (s.declaration ++ '\n' :: ofRows s.inner)) := text_eq _
  rw [insertBeforeClass, insert_of_find found, later, docRows_append]
  simp [insertInto, Placement.around, joinLines]

theorem find?_text_bare (h : s.Sound) (bare : s.doc = none) (body : Inert (ofRows s.body)) :
    find? s.text = none := by
  have free : '/' ∉ s.declaration := by
    have name : '/' ∉ s.name := h.name.not_mem (by decide)
    have parent : '/' ∉ s.parent := h.parent.not_mem (by decide)
    unfold declaration
    simp [name, parent]
  have front : Inert (s.declaration ++ "\n\x7b\n".toList) := inert_of_not_mem (by simp [free])
  have back : Inert "\x7d\n".toList := inert_of_not_mem (by decide)
  have split : s.text = ofRows s.head ++ ((s.declaration ++ "\n\x7b\n".toList) ++
      (ofRows s.body ++ "\x7d\n".toList)) := by
    rw [text_eq, bare]
    simp [docRows, inner]
  rw [split]
  exact find?_eq_none_of_inert (h.inert_head.append (front.append (body.append back)))

theorem annotate_text (h : s.Sound) (bare : s.doc = none) (body : Inert (ofRows s.body))
    (entries : List Text) :
    annotate entries s.text = .ok (s.documented entries.eraseDups).text := by
  rw [annotate, find?_text_bare h bare body]
  exact insertBeforeClass_text h bare _

/-- The entries of the doc block of the class. -/
def classEntries? (t : Text) : Option (List Text) :=
  (find? t).map fun cut => DocBlock.entries cut.block

theorem classEntries?_text (h : s.Sound) (documented : s.doc = some entries)
    (clean : ∀ entry ∈ entries, IsEntry entry) : classEntries? s.text = some entries := by
  have here : declares ('\n' :: (s.declaration ++ '\n' :: ofRows s.inner)) := by
    rw [declares_cons_blank (by decide)]
    exact declares_append (declares_declaration s) (.inl rfl)
  have block := atFront?_block (clear_renderBody fun entry mem => (clean entry mem).open_) here
  rw [← render_eq] at block
  have found := find?_behind_inert h.inert_head block
  rw [classEntries?, text_eq, documented, docRows_append, found, Option.map_some,
    entries_render clean]

/-- The rows below that of the namespace. -/
def below (s : Sheet) : List Text :=
  s.groups.flatMap group ++ [] :: (docRows s.doc ++ s.declaration :: s.inner)

theorem text_eq_below (s : Sheet) :
    s.text = ofRows ["<?php".toList, []] ++ (s.spaceRow ++ '\n' :: ofRows s.below) := by
  simp [text, rows, head, below]

theorem text_importing (s : Sheet) (names : List Text) :
    (s.importing names).text = ofRows ["<?php".toList, []] ++
      (s.spaceRow ++ (importLines names ++ '\n' :: ofRows s.below)) := by
  cases names with
  | nil => exact text_eq_below s
  | cons name names =>
    have rows : (s.importing (name :: names)).below = group (name :: names) ++ s.below := by
      simp [below]
      simp [importing]
    have filled : (name :: names).map Import.statement ≠ [] := by simp
    have lines := joinLines_append_lf filled (ofRows s.below)
    rw [text_eq_below, rows, importing_spaceRow, importLines, List.cons_append, List.cons_append,
      lines]
    · simp [group]
    · simp

theorem addImports_text (h : s.Sound) (names : List Text) :
    addImports names s.text = .ok (s.importing (missingImports s.text names)).text := by
  have whole := h.unbroken_head s.spaceRow (by simp [head])
  have here : occurs namespaceWord s.spaceRow :=
    occurs_iff.2 ⟨[], ' ' :: (s.space ++ [';']), rfl⟩
  have missed : ∀ row ∈ ["<?php".toList, []], occurs namespaceWord row = false := by decide
  have first := first?_ofRows (by decide) missed whole here (ofRows s.below)
  rw [← text_eq_below] at first
  have found : (Needle.literal namespaceWord).find s.text =
      .ok ⟨ofRows ["<?php".toList, []], s.spaceRow, '\n' :: ofRows s.below⟩ :=
    Needle.find_eq_ok_iff.2 first
  rw [addImports_eq found, text_importing]
  simp

theorem appendToBody_text (filled : method ≠ []) (s : Sheet) :
    appendToBody ('\n' :: joinLines method) s.text = .ok (s.extended method).text := by
  have split : s.text = ofRows (s.head ++ (docRows s.doc ++ s.declaration :: ['\x7b'] :: s.body)) ++
      '\x7d' :: ['\n'] := by
    simp [text, rows, inner]
  have later : (s.extended method).text =
      ofRows (s.head ++ (docRows s.doc ++ s.declaration :: ['\x7b'] :: s.body)) ++
        '\n' :: (ofRows method ++ ['\x7d', '\n']) := by
    simp [text, rows, inner]
  rw [split, appendToBody_eq (by decide), later, ← joinLines_append_lf filled]
  simp

theorem occurrences_text (filled : word ≠ []) (whole : '\n' ∉ word) (s : Sheet) :
    occurrences word s.text = (s.rows.map (occurrences word)).sum :=
  occurrences_ofRows filled whole _

theorem occurrences_importing (filled : word ≠ []) (whole : '\n' ∉ word)
    (bare : ∀ name ∈ names, ¬ word <:+: Import.statement name) (s : Sheet) :
    occurrences word (s.importing names).text = occurrences word s.text := by
  rw [occurrences_text filled whole, occurrences_text filled whole]
  by_cases nothing : names = []
  · simp [importing, nothing]
  · have statements : ((names.map Import.statement).map (occurrences word)).sum = 0 :=
      sum_occurrences_eq_zero (by simpa using bare)
    have groups : (s.importing names).groups = names :: s.groups := by simp [importing, nothing]
    simp only [rows, head, groups, importing_spaceRow, importing_doc, importing_declaration,
      importing_inner, List.flatMap_cons, group, List.map_append, List.map_cons, List.sum_append,
      List.sum_cons, statements, occurrences_nil filled]
    omega

theorem occurrences_documented (filled : word ≠ []) (whole : '\n' ∉ word) (blank : s.doc = none)
    (bare : ∀ row ∈ docRows (some entries), ¬ word <:+: row) :
    occurrences word (s.documented entries).text = occurrences word s.text := by
  have doc : (s.documented entries).doc = some entries := rfl
  rw [occurrences_text filled whole, occurrences_text filled whole]
  simp only [rows, documented_head, documented_declaration, documented_inner, doc, blank, docRows,
    List.map_append, List.sum_append, List.nil_append]
  have rows := sum_occurrences_eq_zero bare
  simp only [docRows, List.map_append, List.sum_append] at rows
  omega

theorem occurrences_extended (filled : word ≠ []) (whole : '\n' ∉ word) (s : Sheet)
    (method : List Text) :
    occurrences word (s.extended method).text =
      occurrences word s.text + occurrences word (ofRows method) := by
  rw [occurrences_text filled whole, occurrences_text filled whole, occurrences_ofRows filled whole]
  simp only [rows, inner, extended_head, extended_doc, extended_declaration, extended_body,
    List.map_append, List.map_cons, List.sum_append, List.sum_cons, occurrences_nil filled]
  omega

theorem imports_ofRows (rows : List Text) : imports (ofRows rows) = rows.flatMap imports := by
  induction rows with
  | nil => exact imports_nil
  | cons row rows ih => rw [ofRows_cons, imports_append_lf, ih, List.flatMap_cons]

theorem imports_statement {name : Text} (clean : Spelled name) :
    imports (Import.statement name) = [name] := by
  have line : '\n' ∉ Import.statement name := by
    have free : '\n' ∉ name := clean.not_mem (by decide)
    unfold Import.statement
    simp [Import.opener, free]
  rw [imports_of_not_mem_lf line, Import.name?_statement, Option.toList_some]

theorem imports_subset {s t : Sheet} (h : s.rows ⊆ t.rows) : imports s.text ⊆ imports t.text := by
  intro name mem
  rw [text, imports_ofRows, List.mem_flatMap] at mem ⊢
  obtain ⟨row, listed, there⟩ := mem
  exact ⟨row, h listed, there⟩

theorem imports_importing (s : Sheet) (names : List Text) :
    imports s.text ⊆ imports (s.importing names).text := by
  have kept : s.groups ⊆ (s.importing names).groups := List.subset_append_right _ _
  refine imports_subset fun row mem => ?_
  simp only [rows, head, importing_spaceRow, importing_doc, importing_declaration, importing_inner,
    List.mem_append, List.mem_cons, List.mem_flatMap] at mem ⊢
  grind

theorem imports_extended (s : Sheet) (method : List Text) :
    imports s.text ⊆ imports (s.extended method).text := by
  have kept : s.body ⊆ (s.extended method).body := List.subset_append_left _ _
  refine imports_subset fun row mem => ?_
  simp only [rows, inner, extended_head, extended_doc, extended_declaration,
    List.mem_append, List.mem_cons] at mem ⊢
  grind

theorem imports_documented (bare : s.doc = none) (entries : List Text) :
    imports s.text ⊆ imports (s.documented entries).text := by
  refine imports_subset fun row mem => ?_
  simp only [rows, bare, docRows, documented_head, documented_declaration, documented_inner,
    List.nil_append, List.mem_append] at mem ⊢
  grind

theorem mem_imports_of_mem_groups (listed : names ∈ s.groups) (mem : name ∈ names)
    (clean : Spelled name) : name ∈ imports s.text := by
  have row : Import.statement name ∈ s.groups.flatMap group :=
    List.mem_flatMap.2 ⟨names, listed, List.mem_cons_of_mem _ (List.mem_map_of_mem mem)⟩
  rw [text, imports_ofRows, List.mem_flatMap]
  refine ⟨Import.statement name, ?_, by simp [imports_statement clean]⟩
  simp only [rows, head, List.mem_append, List.mem_cons]
  exact .inl (.inr (.inr (.inr (.inl row))))

theorem mem_imports_importing (clean : Spelled name) (mem : name ∈ names) :
    name ∈ imports (s.importing (missingImports s.text names)).text := by
  by_cases known : name ∈ imports s.text
  · exact imports_importing s _ known
  · have missing := mem_missingImports.2 ⟨mem, known⟩
    have listed : missingImports s.text names ∈
        (s.importing (missingImports s.text names)).groups := by
      simp [importing, List.ne_nil_of_mem missing]
    exact mem_imports_of_mem_groups listed missing clean

end Sheet
end Scaffold.Source
