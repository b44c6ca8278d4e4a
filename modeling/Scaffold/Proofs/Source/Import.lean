import Scaffold.Proofs.Source.Insertion
import Scaffold.Source.Edit

/-! Imports under insertion. Where every carriage return is followed by a line feed, the end of
an anchor line is the end of an import line as well, so new statements are read back as they
were written and no old one is lost: adding imports is a union. -/

namespace Scaffold.Source
open Text

/-- Every carriage return is the first half of a break of two characters. -/
def PairedReturns (t : Text) : Prop :=
  ∀ front back, t = front ++ '\r' :: back → back.head? = some '\n'

theorem pairedReturns_cons {c : Char} {t : Text} :
    PairedReturns (c :: t) ↔ (c = '\r' → t.head? = some '\n') ∧ PairedReturns t := by
  constructor
  · intro h
    refine ⟨fun eq => h [] t (by simp [eq]), fun front back eq => h (c :: front) back ?_⟩
    rw [eq, List.cons_append]
  · rintro ⟨first, others⟩ (_ | ⟨d, front⟩) back eq
    · simp only [List.nil_append, List.cons.injEq] at eq
      exact eq.2 ▸ first eq.1
    · simp only [List.cons_append, List.cons.injEq] at eq
      exact others front back eq.2

instance : DecidablePred PairedReturns
  | [] => isTrue fun front back eq => by simp at eq
  | _ :: t =>
    have := instDecidablePredTextPairedReturns t
    decidable_of_iff _ pairedReturns_cons.symm

namespace PairedReturns

theorem of_not_mem {t : Text} (h : '\r' ∉ t) : PairedReturns t := by
  rintro front back rfl
  simp at h

theorem append {s t : Text} (hs : PairedReturns s) (ht : PairedReturns t) :
    PairedReturns (s ++ t) := by
  intro front back eq
  rcases List.append_eq_append_iff.1 eq with ⟨middle, -, inner⟩ | ⟨middle, inner, tail⟩
  · exact ht middle back inner
  · cases middle with
    | nil => exact ht [] back tail.symm
    | cons c middle =>
      simp only [List.cons_append, List.cons.injEq] at tail
      obtain ⟨rfl, rfl⟩ := tail
      have next := hs front middle inner
      obtain ⟨rest, rfl⟩ := List.head?_eq_some_iff.1 next
      rfl

theorem of_append_right {s t : Text} (h : PairedReturns (s ++ t)) : PairedReturns t := by
  rintro front back rfl
  exact h (s ++ front) back (by simp)

theorem of_append_left {s t : Text} (h : PairedReturns (s ++ t)) (last : s.getLast? ≠ some '\r') :
    PairedReturns s := by
  rintro front back rfl
  have next := h front (back ++ t) (by simp)
  cases back with
  | nil => simp at last
  | cons c back => simpa using next

end PairedReturns

namespace Import

theorem name?_eq_some_iff {line name : Text} : name? line = some name ↔
    ∃ front tail, line = front ++ opener ++ (name ++ ';' :: tail) ∧ Clear opener front ∧
      ';' ∉ tail := by
  simp only [name?, Option.bind_eq_bind, Option.bind_eq_some_iff, Prod.exists, Option.some.injEq]
  constructor
  · rintro ⟨front, rest, opened, name, tail, closed, rfl⟩
    obtain ⟨rfl, clear⟩ := (cut?_eq_some_iff (by decide)).1 opened
    obtain ⟨rfl, last⟩ := cutLast?_eq_some_iff.1 closed
    exact ⟨front, tail, rfl, clear, last⟩
  · rintro ⟨front, tail, rfl, clear, last⟩
    exact ⟨front, _, cut?_append (by decide) clear _, name, tail, cutLast?_append last name, rfl⟩

theorem name?_statement (name : Text) : name? (statement name) = some name := by
  have opened : cut? opener (statement name) = some ([], name ++ [';']) :=
    cut?_append (by decide) (clear_nil (by decide)) _
  have closed : cutLast? ';' (name ++ [';']) = some (name, []) :=
    cutLast?_append (by simp) name
  simp [name?, opened, closed]

theorem cut?_opener_append_cr (line : Text) :
    cut? opener (line ++ ['\r']) = (cut? opener line).map fun (f, b) => (f, b ++ ['\r']) := by
  cases found : cut? opener line with
  | some pieces =>
    obtain ⟨rfl, clear⟩ := (cut?_eq_some_iff (by decide)).1 found
    simpa using cut?_append (by decide) clear (pieces.2 ++ ['\r'])
  | none =>
    rw [Option.map_none, cut?_eq_none_iff]
    intro inside
    rcases infix_append_break (by decide) (.inr rfl) inside with here | nothing
    · exact cut?_eq_none_iff.1 found here
    · exact absurd (List.infix_nil.1 nothing) (by decide)

theorem cutLast?_semicolon_append_cr (line : Text) :
    cutLast? ';' (line ++ ['\r']) = (cutLast? ';' line).map fun (f, b) => (f, b ++ ['\r']) := by
  cases found : cutLast? ';' line with
  | some pieces =>
    obtain ⟨rfl, absent⟩ := cutLast?_eq_some_iff.1 found
    have still : ';' ∉ pieces.2 ++ ['\r'] := by simp [absent]
    simpa using cutLast?_append still pieces.1
  | none =>
    have absent := cutLast?_eq_none_iff.1 found
    simp [cutLast?_eq_none_iff, absent]

theorem name?_append_cr (line : Text) : name? (line ++ ['\r']) = name? line := by
  unfold name?
  rw [cut?_opener_append_cr]
  cases cut? opener line with
  | none => rfl
  | some pieces =>
    simp only [Option.map_some, Option.bind_eq_bind, Option.bind_some]
    rw [cutLast?_semicolon_append_cr]
    cases cutLast? ';' pieces.2 <;> rfl

end Import

/-- A row of the text, up to a line feed, holds the name between its first `use` and its last
semicolon. -/
def Imported (name t : Text) : Prop :=
  ∃ row ∈ t.splitOn '\n', ∃ front tail, row = front ++ "use ".toList ++ name ++ ';' :: tail ∧
    Clear "use ".toList front ∧ ';' ∉ tail

theorem mem_imports_iff {name t : Text} : name ∈ imports t ↔ Imported name t := by
  simp only [imports, Imported, List.mem_filterMap, Import.name?_eq_some_iff, Import.opener,
    List.append_assoc]

theorem imports_append_lf (front back : Text) :
    imports (front ++ '\n' :: back) = imports front ++ imports back := by
  rw [imports, List.splitOn_append_cons_self, List.filterMap_append]
  rfl

theorem imports_of_not_mem_lf {line : Text} (h : '\n' ∉ line) :
    imports line = (Import.name? line).toList := by
  rw [imports, List.splitOn_eq_singleton h]
  cases found : Import.name? line <;> simp [found]

@[simp] theorem imports_nil : imports [] = [] :=
  imports_of_not_mem_lf (by simp)

theorem imports_line_append_cr {line : Text} (h : '\n' ∉ line) :
    imports (line ++ ['\r']) = imports line := by
  have single : '\n' ∉ line ++ ['\r'] := by simp [h]
  rw [imports_of_not_mem_lf h, imports_of_not_mem_lf single, Import.name?_append_cr]

theorem imports_append_cr (t : Text) : imports (t ++ ['\r']) = imports t := by
  cases found : cutLast? '\n' t with
  | none => exact imports_line_append_cr (cutLast?_eq_none_iff.1 found)
  | some pieces =>
    obtain ⟨rfl, single⟩ := cutLast?_eq_some_iff.1 found
    rw [List.append_assoc, List.cons_append, imports_append_lf, imports_append_lf,
      imports_line_append_cr single]

theorem imports_statements {names : List Text} (some : names ≠ [])
    (clean : ∀ name ∈ names, Unbroken name) :
    imports (joinLines (names.map Import.statement)) = names := by
  induction names with
  | nil => exact absurd rfl some
  | cons name names ih =>
    have single : '\n' ∉ Import.statement name := by
      have fine := (clean name (by simp)).not_mem_lf
      simp [Import.statement, Import.opener, fine]
    have first : imports (Import.statement name) = [name] := by
      rw [imports_of_not_mem_lf single, Import.name?_statement, Option.toList_some]
    by_cases more : names = []
    · subst more
      simpa [joinLines] using first
    · rw [List.map_cons, joinLines_cons _ (by simpa using more), imports_append_lf, first,
        ih more fun other mem => clean other (List.mem_cons_of_mem _ mem), List.singleton_append]

theorem imports_append_of_paired {after : Text} (paired : PairedReturns after)
    (closes : ∀ c ∈ after.head?, IsBreak c) (front : Text) :
    imports (front ++ after) = imports front ++ imports after := by
  cases after with
  | nil => simp
  | cons c rest =>
    rcases closes c rfl with rfl | rfl
    · have split := imports_append_lf [] rest
      rw [imports_append_lf, ← List.nil_append ('\n' :: rest), split, imports_nil,
        List.nil_append]
    · obtain ⟨rest, rfl⟩ := List.head?_eq_some_iff.1 (paired [] rest rfl)
      have joint := imports_append_lf (front ++ ['\r']) rest
      have alone := imports_append_lf ['\r'] rest
      have bare : imports ['\r'] = [] := imports_append_cr []
      simp only [List.append_assoc, List.cons_append, List.nil_append] at joint alone
      rw [joint, alone, imports_append_cr, bare, List.nil_append]

theorem imports_insertInto {t : Text} {cut : LineCut} {p : Text → Bool} (at_ : cut.At p t)
    (paired : PairedReturns t) {names : List Text} (some : names ≠ [])
    (clean : ∀ name ∈ names, Unbroken name) (name : Text) :
    name ∈ imports (insertInto cut (names.map Import.statement) .after) ↔
      name ∈ imports t ∨ name ∈ names := by
  have behind : PairedReturns cut.after := (at_.text ▸ paired).of_append_right
  have old : imports t = imports (cut.before ++ cut.line) ++ imports cut.after := by
    rw [← at_.text, LineCut.text, imports_append_of_paired behind at_.closes]
  have new : imports (insertInto cut (names.map Import.statement) .after) =
      imports (cut.before ++ cut.line) ++ (names ++ imports cut.after) := by
    calc imports (insertInto cut (names.map Import.statement) .after)
        = imports ((cut.before ++ cut.line) ++ '\n' ::
            ([] ++ '\n' :: (joinLines (names.map Import.statement) ++ cut.after))) := by
          simp [insertInto, Placement.around]
      _ = imports (cut.before ++ cut.line) ++ (names ++ imports cut.after) := by
          rw [imports_append_lf, imports_append_lf, imports_nil, List.nil_append,
            imports_append_of_paired behind at_.closes, imports_statements some clean]
  simp only [old, new, List.mem_append]
  exact ⟨fun h => by grind, fun h => by grind⟩

theorem not_mem_joinLines {c : Char} (other : c ≠ '\n') {blocks : List Text}
    (h : ∀ block ∈ blocks, c ∉ block) : c ∉ joinLines blocks := by
  induction blocks with
  | nil => simp [joinLines]
  | cons block blocks ih =>
    by_cases more : blocks = []
    · simpa [more, joinLines] using h block
    · have later := ih fun next mem => h next (List.mem_cons_of_mem _ mem)
      have here := h block List.mem_cons_self
      simp [joinLines_cons _ more, here, later, other]

/-- A text that imports can be added to and read back from. -/
structure Importing (t : Text) : Prop where
  spaced : occurs namespaceWord t
  paired : PairedReturns t

theorem Importing.insertInto {t : Text} (h : Importing t) {cut : LineCut}
    (at_ : cut.At (occurs namespaceWord) t) {names : List Text}
    (clean : ∀ name ∈ names, Unbroken name) :
    Importing (insertInto cut (names.map Import.statement) .after) := by
  have shape : Source.insertInto cut (names.map Import.statement) .after =
      (cut.before ++ cut.line) ++
        ('\n' :: '\n' :: joinLines (names.map Import.statement) ++ cut.after) := by
    simp [Source.insertInto, Placement.around]
  have word : namespaceWord <:+: cut.line := occurs_iff.1 at_.holds
  have paired : PairedReturns ((cut.before ++ cut.line) ++ cut.after) := by
    rw [← LineCut.text, at_.text]
    exact h.paired
  refine ⟨occurs_iff.2 ?_, ?_⟩
  · rw [shape, List.append_assoc]
    exact List.infix_append_of_infix_right (word.trans List.infix_append_left)
  -- no return is put in, and none stands right in front of the new line feeds
  · have last : (cut.before ++ cut.line).getLast? ≠ some '\r' := by
      have filled : cut.line ≠ [] := by
        rintro empty
        exact absurd (List.infix_nil.1 (empty ▸ word)) (by decide)
      rw [List.getLast?_append, List.getLast?_eq_some_getLast filled, Option.some_or]
      intro eq
      refine at_.whole.not_mem_cr ?_
      rw [← Option.some.inj eq]
      exact List.getLast_mem filled
    have inner : '\r' ∉ '\n' :: '\n' :: joinLines (names.map Import.statement) := by
      have lines : '\r' ∉ joinLines (names.map Import.statement) := by
        refine not_mem_joinLines (by decide) fun block mem => ?_
        obtain ⟨name, named, rfl⟩ := List.mem_map.1 mem
        simp [Import.statement, Import.opener, (clean name named).not_mem_cr]
      simp [lines]
    rw [shape]
    exact (paired.of_append_left last).append
      ((PairedReturns.of_not_mem inner).append paired.of_append_right)

theorem addImports_eq_self {t : Text} (spaced : occurs namespaceWord t) {names : List Text}
    (known : ∀ name ∈ names, name ∈ imports t) : addImports names t = .ok t := by
  have nothing : missingImports t names = [] := by
    refine List.eq_nil_iff_forall_not_mem.2 fun name mem => ?_
    obtain ⟨given, missing⟩ := mem_missingImports.1 mem
    exact missing (known name given)
  simp [addImports, spaced, nothing]

/-- What is put behind the namespace line: nothing, or the statements below a blank line. -/
def importLines : (missing : List Text) → Text
  | [] => []
  | missing => '\n' :: '\n' :: joinLines (missing.map Import.statement)

theorem importLines_eq (names : List Text) : importLines names =
    if names = [] then [] else "\n\n".toList ++
      ['\n'].intercalate (names.map fun name => "use ".toList ++ name ++ [';']) := by
  cases names with
  | nil => rfl
  | cons name others => rfl

theorem not_mem_importLines {c : Char} {names : List Text} (other : c ∉ "\nuse ;".toList)
    (absent : ∀ name ∈ names, c ∉ name) : c ∉ importLines names := by
  have break_ : c ≠ '\n' := by
    rintro rfl
    exact other (by decide)
  cases names with
  | nil => simp [importLines]
  | cons name others =>
    have inner : c ∉ joinLines ((name :: others).map Import.statement) := by
      refine not_mem_joinLines break_ fun block mem => ?_
      obtain ⟨named, given, rfl⟩ := List.mem_map.1 mem
      have free := absent named given
      simp_all [Import.statement, Import.opener]
    simpa [importLines, break_] using inner

theorem addImports_eq {t : Text} {cut : LineCut}
    (found : (Needle.literal namespaceWord).find t = .ok cut) (names : List Text) :
    addImports names t =
      .ok (cut.before ++ cut.line ++ importLines (missingImports t names) ++ cut.after) := by
  have at_ := Needle.at_of_find found
  have word : namespaceWord <:+: cut.line := occurs_iff.1 at_.holds
  have spaced : occurs namespaceWord t := by
    rw [occurs_iff, ← at_.text]
    exact (List.infix_append_of_infix_right word).trans List.infix_append_left
  rw [addImports, if_neg (by simp [spaced])]
  cases missingImports t names with
  | nil => simp [importLines, ← at_.text, LineCut.text]
  | cons name others => simp [importLines, insert_of_find found, insertInto, Placement.around]

theorem Importing.addImports {t : Text} (h : Importing t) {names : List Text}
    (clean : ∀ name ∈ names, Unbroken name) :
    ∃ later, addImports names t = .ok later ∧ Importing later ∧
      ∀ name, name ∈ imports later ↔ name ∈ imports t ∨ name ∈ names := by
  by_cases nothing : missingImports t names = []
  · have known : ∀ name ∈ names, name ∈ imports t := by
      refine fun name given => Decidable.byContradiction fun unknown => ?_
      simpa [nothing] using mem_missingImports.2 ⟨given, unknown⟩
    refine ⟨t, addImports_eq_self h.spaced known, h, fun name => ?_⟩
    exact ⟨.inl, fun either => either.elim id (known name)⟩
  · obtain ⟨cut, found⟩ := Needle.exists_find_literal (by decide) h.spaced
    have at_ := Needle.at_of_find found
    have fresh : ∀ name ∈ missingImports t names, Unbroken name :=
      fun name mem => clean name (mem_missingImports.1 mem).1
    refine ⟨_, ?_, h.insertInto at_ fresh, fun name => ?_⟩
    · rw [Source.addImports, if_neg (by simp [h.spaced])]
      split
      · contradiction
      · exact insert_of_find found _ _
    · rw [imports_insertInto at_ h.paired nothing fresh, mem_missingImports]
      by_cases known : name ∈ imports t <;> simp [known]

/-- The additions of several lists of names, one after the other. -/
def addAll (calls : List (List Text)) (t : Text) : Except Fault Text :=
  calls.foldlM (fun t names => addImports names t) t

theorem Importing.addAll {t : Text} (h : Importing t) {calls : List (List Text)}
    (clean : ∀ names ∈ calls, ∀ name ∈ names, Unbroken name) :
    ∃ later, addAll calls t = .ok later ∧ Importing later ∧
      ∀ name, name ∈ imports later ↔ name ∈ imports t ∨ ∃ names ∈ calls, name ∈ names := by
  induction calls generalizing t with
  | nil => exact ⟨t, rfl, h, by simp⟩
  | cons names calls ih =>
    obtain ⟨next, added, ready, union⟩ := h.addImports (clean names List.mem_cons_self)
    obtain ⟨later, rest, done, all⟩ := ih ready fun others mem =>
      clean others (List.mem_cons_of_mem _ mem)
    refine ⟨later, ?_, done, fun name => ?_⟩
    · rw [Source.addAll, List.foldlM_cons, added]
      exact rest
    · rw [all, union]
      simp [or_assoc]

/-- Adding imports unites, adding known ones changes nothing, and of several additions the order
does not matter to what is imported in the end. -/
theorem addImports_unites {t : Text} (spaced : occurs namespaceWord t) (paired : PairedReturns t) :
    (∀ names : List Text, (∀ name ∈ names, Unbroken name) →
      ∃ later, addImports names t = .ok later ∧
        (∀ name, name ∈ imports later ↔ name ∈ imports t ∨ name ∈ names) ∧
        ∀ again : List Text, (∀ name ∈ again, name ∈ imports t ∨ name ∈ names) →
          addImports again later = .ok later) ∧
    ∀ calls calls' : List (List Text), (∀ names ∈ calls, ∀ name ∈ names, Unbroken name) →
      calls.Perm calls' →
      ∃ later later', addAll calls t = .ok later ∧ addAll calls' t = .ok later' ∧
        ∀ name, name ∈ imports later ↔ name ∈ imports later' := by
  have start : Importing t := ⟨spaced, paired⟩
  constructor
  · intro names clean
    obtain ⟨later, added, ready, union⟩ := start.addImports clean
    refine ⟨later, added, union, fun again known => ?_⟩
    exact addImports_eq_self ready.spaced fun name mem => (union name).2 (known name mem)
  · intro calls calls' clean perm
    obtain ⟨later, run, -, all⟩ := start.addAll clean
    obtain ⟨later', run', -, all'⟩ := start.addAll fun names mem => clean names (perm.mem_iff.2 mem)
    refine ⟨later, later', run, run', fun name => ?_⟩
    rw [all, all']
    simp only [perm.mem_iff]

theorem addImports_unites_crlf :
    ∃ later, addImports ["B;use C".toList, [], "A".toList, []]
        "namespace N;\r\n\r\nuse A;\r\n".toList = .ok later ∧
      ∀ name, name ∈ imports later ↔
        name ∈ imports "namespace N;\r\n\r\nuse A;\r\n".toList ∨
          name ∈ ["B;use C".toList, [], "A".toList, []] := by
  have spaced : occurs namespaceWord "namespace N;\r\n\r\nuse A;\r\n".toList := by decide
  have paired : PairedReturns "namespace N;\r\n\r\nuse A;\r\n".toList := by decide
  obtain ⟨later, added, union, -⟩ := (addImports_unites spaced paired).1
    ["B;use C".toList, [], "A".toList, []] (by decide)
  exact ⟨later, added, union⟩

end Scaffold.Source
